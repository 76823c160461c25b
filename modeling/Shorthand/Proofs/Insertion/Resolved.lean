import Shorthand.Candidate.Query
import Shorthand.Proofs.Insertion.Imported
import Shorthand.Proofs.Model.Declared
import Shorthand.Proofs.Model.Lineage
import Shorthand.Proofs.Model.Recorded

/-!
What the name of an imported type stands for.

With a new import a text declares the same types, in the same package, and imports what it imported
before and then the new type. A simple name is looked for in the types around the place where it stands
first, and then among the imports in their order. So the new import makes the name stand for the type,
unless a type around the place or an earlier import goes before it.

* `Index.importsAlso_withImport`: the header and the names of the types of a text with a new import.
* `Index.ImportsAlso.simpleType?_eq_iff`: when the simple name of an imported type stands for the type.
* `Index.resolveTypeName?_withImport`: what is written for a type that had to be imported stands for it.
-/

namespace Shorthand

namespace Index

open Node

variable {ns ms : List Node}

/-! ### The header and the types of a text -/

lemma importOf?_unplace (n : Node) : importOf? n.unplace = importOf? n := by
  rw [importOf?, importOf?, qualifiedName?_child_unplace, hasModifier_unplace, unplace_eq, spelling,
    spelling]

lemma packageOf_unplace (tree : Node) : packageOf tree.unplace = packageOf tree := by
  have hkind : (fun n : Node => n.kind == .packageDeclaration) ∘ unplace
      = fun n => n.kind == .packageDeclaration := funext fun n => by simp [unplace_eq]
  rw [packageOf, packageOf, unplace_eq]
  simp only [List.filter_map, hkind, List.getLast?_map]
  cases (tree.children.filter fun n => n.kind == .packageDeclaration).getLast? with
  | none => rfl
  | some d => simp [qualifiedName?_child_unplace]

lemma enteredType_unplace (package : String) (outer : Option String) (qualified simple : String)
    (n : Node) : enteredType package outer qualified simple n.unplace
      = enteredType package outer qualified simple n := by
  have hvariables : typeVariablesOf n.unplace = typeVariablesOf n := by
    rw [typeVariablesOf, typeVariablesOf, childrenWith_unplace, List.filterMap_map]
    exact List.filterMap_congr fun m _ => name?_unplace m
  rw [enteredType, enteredType, hvariables, typeKindOf, typeKindOf, unplace_eq, spelling, spelling]

mutual

/-- The types that a node declares do not depend on where they stand. -/
lemma typesOf_unplace (package : String) (outer : Option String) : (n : Node) →
    (typesOf package outer n.unplace).map (·.info) = (typesOf package outer n).map (·.info)
  | ⟨kind, role, span, text, children⟩ => by
    have hchildren := fun outer => typesAmong_unplaceAll package outer children
    have hname := name?_unplace ⟨kind, role, span, text, children⟩
    have hentered := fun qualified simple =>
      enteredType_unplace package outer qualified simple ⟨kind, role, span, text, children⟩
    rw [unplace] at hname hentered ⊢
    rw [typesOf, typesOf, hname]
    split
    · split
      · simp only [List.map_cons, hchildren, hentered]
      · rfl
    · rfl

lemma typesAmong_unplaceAll (package : String) (outer : Option String) : (ns : List Node) →
    (typesAmong package outer (unplaceAll ns)).map (·.info)
      = (typesAmong package outer ns).map (·.info)
  | [] => rfl
  | n :: ns => by
    rw [unplaceAll, typesAmong, typesAmong, List.map_append, List.map_append, typesOf_unplace,
      typesAmong_unplaceAll]

end

lemma typesAmong_append (package : String) (outer : Option String) (ns ms : List Node) :
    typesAmong package outer (ns ++ ms)
      = typesAmong package outer ns ++ typesAmong package outer ms := by
  induction ns with
  | nil => rfl
  | cons n ns ih => rw [List.cons_append, typesAmong, typesAmong, ih, List.append_assoc]

/-! ### What becomes known with the import -/

/-- The declaration of a new import comes before the types of a text, and the rest stays. -/
lemma exists_children_withImport (source : String) {name : String}
    (hname : ∀ word ∈ Ty.segments name, IsIdentifier word) : ∃ header types,
    (parse source).tree.children = header ++ types
      ∧ (∀ t ∈ types, Parser.IsTopType t)
      ∧ SameAll (header ++ importNode name :: types)
        (parse (withImport source name)).tree.children := by
  obtain ⟨first, words, hwords⟩ := segments_eq_cons name
  obtain ⟨package, imports, types, ts, rest, textEnd, htree, hunit⟩ := parse_unitForked source
  have hchildren : (parse source).tree.children = package ++ imports ++ types := by rw [htree]
  obtain ⟨-, -, new, offset, hnew, hahead⟩ :=
    withImport_tokens hwords (hwords ▸ hname) hchildren hunit
  have hsame := (same_inserted htree hunit hwords hnew hahead).children
  rw [withInsertedChild_append hchildren] at hsame
  exact ⟨package ++ imports, types, hchildren, hunit.isType, hsame⟩

/-- With the second state the text has one import more than with the first, behind all others, and the
same types are known by name. -/
structure ImportsAlso (ix : Index) (name : String) (ix' : Index) : Prop where
  package : ix'.package = ix.package
  imports : ix'.imports = ix.imports ++ [⟨name, false, false⟩]
  lookup? (known : String) : (ix'.lookup? known).map (·.name) = (ix.lookup? known).map (·.name)

lemma packageOf_congr {n m : Node} (h : SameAll n.children m.children) : packageOf n = packageOf m := by
  have hunplaced (k : Node) : packageOf k
      = packageOf ⟨.compilationUnit, .unplaced, .detached, none, k.children.map unplace⟩ := by
    rw [← packageOf_unplace k, packageOf, packageOf, unplace_eq]
  rw [hunplaced n, hunplaced m, h]

lemma importsOf_congr (h : SameAll ns ms) : ns.filterMap importOf? = ms.filterMap importOf? := by
  have hunplaced (ks : List Node) : ks.filterMap importOf? = (ks.map unplace).filterMap importOf? := by
    rw [List.filterMap_map]
    exact List.filterMap_congr fun n _ => (importOf?_unplace n).symm
  rw [hunplaced ns, hunplaced ms, h]

lemma typesAmong_congr (package : String) (outer : Option String) (h : SameAll ns ms) :
    (typesAmong package outer ns).map (·.info) = (typesAmong package outer ms).map (·.info) := by
  rw [← typesAmong_unplaceAll, unplaceAll_eq_map, h, ← unplaceAll_eq_map, typesAmong_unplaceAll]

lemma importOf?_importNode (name : String) : importOf? (importNode name) = some ⟨name, false, false⟩ := by
  have hchild : (importNode name).child? .name = some ((ofName name).inRole .name) := rfl
  rw [importOf?, if_pos (by rfl), hchild, Option.bind_some, qualifiedName?_inRole, qualifiedName?_ofName]
  rfl

/-- A tree with a new import before its types declares the same types, and imports one more. -/
theorem importsAlso_entered {tree tree' : Node} {header types : List Node} (name : String)
    (library : List TypeInfo) (hchildren : tree.children = header ++ types)
    (htypes : ∀ t ∈ types, Parser.IsTopType t)
    (hsame : SameAll (header ++ importNode name :: types) tree'.children) :
    ImportsAlso (ofTree tree library).entered name (ofTree tree' library).entered := by
  have hpackage : packageOf tree' = packageOf tree := by
    rw [← packageOf_congr
      (n := ⟨.compilationUnit, .unplaced, .detached, none, header ++ importNode name :: types⟩) hsame,
      packageOf, packageOf, hchildren, List.filter_append, List.filter_append]
    rfl
  have hnone : types.filterMap importOf? = [] := by
    refine List.filterMap_eq_nil_iff.mpr fun t ht => ?_
    rw [importOf?, if_neg]
    intro hkind
    have htype := (htypes t ht).kind
    rw [hkind] at htype
    cases htype
  have himports : tree'.children.filterMap importOf?
      = tree.children.filterMap importOf? ++ [⟨name, false, false⟩] := by
    rw [← importsOf_congr hsame, hchildren, List.filterMap_append, List.filterMap_append,
      List.filterMap_cons, importOf?_importNode, hnone, List.append_nil]
  have hinfos (package : String) : (typesAmong package none tree'.children).map (·.info)
      = (typesAmong package none tree.children).map (·.info) := by
    have himport : typesOf package none (importNode name) = [] := rfl
    rw [← typesAmong_congr _ _ hsame, hchildren, typesAmong_append, typesAmong_append, typesAmong,
      himport, List.nil_append]
  refine ⟨hpackage, himports, fun known => ?_⟩
  have hsources : (ofTree tree' library).entered.sourceInfos
      = (ofTree tree library).entered.sourceInfos := by
    simp only [sourceInfos, entered, ofTree, hpackage, hinfos]
  rw [Index.lookup?, Index.lookup?, hsources]
  rfl

/-- To fill in members changes no names. -/
lemma ImportsAlso.resolve {ix ix' : Index} {name : String} (hix : ix.resolved = false)
    (hix' : ix'.resolved = false) (h : ImportsAlso ix.entered name ix'.entered) :
    ImportsAlso ix.resolve name ix'.resolve := by
  rw [resolve_eq_filledBy hix, resolve_eq_filledBy hix']
  refine ⟨h.package, h.imports, fun known => ?_⟩
  rw [lookup?_filledBy (keepsNames_completed _), lookup?_filledBy (keepsNames_completed _), h.lookup?]

/-- A text with a new import declares the same types as without it, in the same package. -/
theorem importsAlso_withImport (source : String) {name : String} (library : List TypeInfo)
    (hname : ∀ word ∈ Ty.segments name, IsIdentifier word) :
    ImportsAlso (ofTree (parse source).tree library).resolve name
      (ofTree (parse (withImport source name)).tree library).resolve := by
  obtain ⟨header, types, hchildren, htypes, hsame⟩ := exists_children_withImport source hname
  exact (importsAlso_entered name library hchildren htypes hsame).resolve rfl rfl

/-! ### What the name stands for -/

/-- The type that a simple name stands for because the text imports just this type. -/
def importedType? (ix : Index) (simple : String) : Option TypeInfo :=
  ix.imports.findSome? fun i =>
    if !i.onDemand && !i.isStatic && Ty.lastSegment i.name == simple then ix.lookup? i.name else none

namespace ImportsAlso

variable {ix ix' : Index} {name : String} {offset caret : Nat} {t : TypeInfo}

/-- The new import is looked at behind the others. -/
lemma importedType? (h : ImportsAlso ix name ix') (hknown : (ix.lookup? name).isSome) :
    (ix'.importedType? (Ty.lastSegment name)).map (·.name)
      = ((ix.importedType? (Ty.lastSegment name)).map (·.name)).or (some name) := by
  obtain ⟨known, hlookup⟩ := Option.isSome_iff_exists.mp hknown
  have hnew : (ix'.lookup? name).map (·.name) = some name := by
    rw [h.lookup?, hlookup, Option.map_some, (lookup?_eq_some hlookup).1]
  have hold : (ix.imports.findSome? fun i =>
      if !i.onDemand && !i.isStatic && Ty.lastSegment i.name == Ty.lastSegment name then
        ix'.lookup? i.name else none).map (·.name)
      = (ix.importedType? (Ty.lastSegment name)).map (·.name) := by
    rw [Index.importedType?, List.map_findSome?, List.map_findSome?]
    refine findSome?_congr fun i _ => ?_
    simp only [Function.comp_apply]
    split
    · exact h.lookup? _
    · rfl
  rw [Index.importedType?, h.imports, List.findSome?_append, Option.map_or, hold, ← hnew]
  simp

/-- The types around the place and the earlier imports go before the new import, and nothing else. -/
lemma simpleType?_lastSegment (h : ImportsAlso ix name ix') (hknown : (ix.lookup? name).isSome) :
    (ix'.simpleType? (Ty.lastSegment name) offset).map (·.name)
      = (((ix'.enclosedType? (Ty.lastSegment name) offset).or
          (ix.importedType? (Ty.lastSegment name))).map (·.name)).or (some name) := by
  have himported := h.importedType? hknown
  rw [Index.importedType?] at himported
  simp only [simpleType?, Option.orElse_eq_orElse, Option.orElse_eq_or, Option.map_or, himported,
    Option.or_assoc, Option.some_or]

/-- The simple name of an imported type stands for the type just if neither a type around the place nor
an earlier import makes it stand for another. -/
theorem simpleType?_eq_iff (h : ImportsAlso ix name ix') (hknown : (ix.lookup? name).isSome)
    (offset : Nat) :
    (ix'.simpleType? (Ty.lastSegment name) offset).map (·.name) = some name
      ↔ ∀ u ∈ (ix'.enclosedType? (Ty.lastSegment name) offset).or
          (ix.importedType? (Ty.lastSegment name)), u.name = name := by
  rw [h.simpleType?_lastSegment hknown]
  cases (ix'.enclosedType? (Ty.lastSegment name) offset).or
    (ix.importedType? (Ty.lastSegment name)) <;> simp

end ImportsAlso

/-! ### What is written for a type -/

lemma splitFirst?_eq_some {name head rest : String} (h : splitFirst? name = some (head, rest)) :
    name = head ++ "." ++ rest := by
  rw [splitFirst?] at h
  split at h
  · next next words hsegments =>
    obtain ⟨rfl, rfl⟩ := Prod.mk.inj (Option.some.inj h)
    apply String.toList_injective
    have hrest : (".".intercalate (next :: words)).toList = next.toList ++ furtherText words :=
      (String.toList_intercalate ..).trans (intercalate_words next words)
    rw [toList_segments hsegments, String.toList_append, String.toList_append, hrest, furtherText,
      furtherText, List.flatMap_cons]
    simp
  · cases h

lemma inPackage_append (package first rest : String) :
    inPackage package (first ++ "." ++ rest) = inPackage package first ++ "." ++ rest := by
  rw [inPackage, inPackage]
  split
  · rfl
  · simp only [String.append_assoc]

lemma dotless_firstSegment (name : String) : Dotless (TypeInfo.firstSegment name) := by
  obtain ⟨first, words, hsegments⟩ := segments_eq_cons name
  have hmem : TypeInfo.firstSegment name ∈ Ty.segments name := by
    rw [TypeInfo.firstSegment, hsegments]
    exact List.mem_cons_self
  exact Ty.dotless_of_mem_segments hmem

/-- The outermost type around a type is named by the first part of what is displayed of the type. -/
lemma topLevelName_eq {t : TypeInfo} (h : t.name = inPackage t.package t.displayName) :
    t.topLevelName = inPackage t.package (TypeInfo.firstSegment t.displayName) := by
  obtain ⟨first, words, hsegments⟩ := segments_eq_cons t.displayName
  have hfirst : TypeInfo.firstSegment t.displayName = first := by
    rw [TypeInfo.firstSegment, hsegments]
    rfl
  have hchars := toList_segments hsegments
  apply String.toList_injective
  rw [TypeInfo.topLevelName, hfirst, h]
  by_cases hpackage : t.package = ""
  · simp [inPackage, hpackage, hchars, ← String.length_toList]
  · have hlength : t.package.length + 1 + first.length = (t.package ++ "." ++ first).toList.length := by
      rw [String.length_toList, String.length_append, String.length_append]
      rfl
    simp only [inPackage, if_neg hpackage, hlength, String.toList_ofList]
    have hmore : (t.package ++ "." ++ t.displayName).toList
        = (t.package ++ "." ++ first).toList ++ furtherText words := by
      simp [hchars]
    rw [hmore, List.take_left]

namespace ImportsAlso

variable {ix ix' : Index} {name : String} {offset caret : Nat} {t : TypeInfo}

/-- What is written for a type that has to be imported stands for the type once it is imported, unless a
type around the place or an earlier import makes the simple name stand for another. -/
theorem resolveTypeName?_written (h : ImportsAlso ix name ix') (hresolved : ix'.resolved = true)
    (himport : (ix.mention caret t).importName = some name)
    (hname : t.name = inPackage t.package t.displayName) (ht : (ix.lookup? t.name).isSome)
    (hknown : (ix.lookup? name).isSome)
    (hfree : ∀ u ∈ (ix'.enclosedType? (Ty.lastSegment name) offset).or
      (ix.importedType? (Ty.lastSegment name)), u.name = name) :
    (ix'.resolveTypeName? (ix.mention caret t).written offset).map (·.name) = some t.name := by
  have htop : t.topLevelName = name := by
    simp only [mention] at himport
    split at himport
    · cases himport
    · exact Option.some.inj himport
  rw [topLevelName_eq hname] at htop
  have hlast : Ty.lastSegment name = TypeInfo.firstSegment t.displayName := by
    rw [← htop, lastSegment_inPackage _ (dotless_firstSegment _)]
  have hsimple := (h.simpleType?_eq_iff hknown offset).mpr hfree
  rw [hlast] at hsimple
  have hwritten : (ix.mention caret t).written = t.displayName := rfl
  rw [resolveTypeName?, if_pos hresolved, writtenType?, hwritten]
  cases hsplit : splitFirst? t.displayName with
  | none =>
    -- The type is in no other one.
    rw [firstSegment_of_splitFirst? hsplit] at hsimple htop
    rw [hname, htop]
    exact hsimple
  | some parts =>
    obtain ⟨head, rest⟩ := parts
    rw [firstSegment_of_splitFirst?_eq_some hsplit] at hsimple htop
    obtain ⟨outer, houter, houterName⟩ := Option.map_eq_some_iff.mp hsimple
    have hinner : t.name = name ++ "." ++ rest := by
      rw [hname, splitFirst?_eq_some hsplit, inPackage_append, htop]
    obtain ⟨inner, hlookup⟩ := Option.isSome_iff_exists.mp ht
    have hlookup' : (ix'.lookup? (name ++ "." ++ rest)).map (·.name) = some t.name := by
      rw [← hinner, h.lookup?, hlookup, Option.map_some, (lookup?_eq_some hlookup).1]
    simp only [houter, Option.bind_some, houterName, Option.orElse_eq_orElse, Option.orElse_eq_or,
      Option.map_or, hlookup', Option.some_or]

end ImportsAlso

/-- What is written for a type that has to be imported stands for the type in the text with the import,
unless a type around the place or an earlier import makes its first part stand for another. -/
theorem resolveTypeName?_withImport {source name : String} {library : List TypeInfo}
    {ix ix' : Index} {caret offset : Nat} {t : TypeInfo}
    (hix : ix = (ofTree (parse source).tree library).resolve)
    (hix' : ix' = (ofTree (parse (withImport source name)).tree library).resolve)
    (himport : (ix.mention caret t).importName = some name)
    (hwords : ∀ word ∈ Ty.segments name, IsIdentifier word)
    (hname : t.name = inPackage t.package t.displayName) (ht : (ix.lookup? t.name).isSome)
    (hknown : (ix.lookup? name).isSome)
    (hfree : ∀ u ∈ (ix'.enclosedType? (Ty.lastSegment name) offset).or
      (ix.importedType? (Ty.lastSegment name)), u.name = name) :
    (ix'.resolveTypeName? (ix.mention caret t).written offset).map (·.name) = some t.name := by
  have himports := importsAlso_withImport source library hwords
  rw [← hix, ← hix'] at himports
  refine himports.resolveTypeName?_written ?_ himport hname ht hknown hfree
  rw [hix', resolve_eq_filledBy rfl]
  rfl

/-- The class around the place goes before the import of a type with its name. -/
example :
    let t := TypeInfo.declaration .classType "util.Box" .compile
    let ix := (ofTree (parse "class Box { }").tree [t]).resolve
    let ix' := (ofTree (parse (withImport "class Box { }" "util.Box")).tree [t]).resolve
    ix.mention 11 t = ⟨"util.Box", "Box", some "util.Box"⟩
      ∧ (ix'.resolveTypeName? "Box" 29).map (·.name) = some "Box"
      ∧ (ix'.resolveTypeName? "Box" 18).map (·.name) = some "util.Box" := by
  decide +kernel

end Index

end Shorthand
