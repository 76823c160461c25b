import Mathlib.Data.Option.Basic
import Shorthand.Proofs.Candidate.Resolution

/-!
What an abbreviation with an owner is resolved to.

The part before the first dot stands for one value in scope (`Index.IsOwnerValue`) or, if there is none,
for types of one tier (`Index.IsOwnerType`). In every slot the collectors for such an abbreviation bring
members of these owners and nothing else: `Owner.HasMember` lists them.

* `Index.ownersAt_spec` says what the owner part stands for.
* `Query.exists_owner` says of what the collectors bring that it is a member of one of the owners.
* `Request.resolve_owned` puts the two together for the fragments of a resolution.
-/

namespace Shorthand

/-! ### Owners -/

namespace Index

variable {ix : Index} {caret : Nat} {owner : String} {e : Element} {t : TypeInfo}

/-- The name is the owner part of an abbreviation, or the owner part abbreviates it. -/
lemma isOwnerName_iff {name : String} :
    isOwnerName owner name = true ↔ name = owner ∨ abbreviate name = owner := by
  rw [isOwnerName, abbreviates, Bool.or_eq_true, beq_iff_eq, beq_iff_eq]

/-- The owner part of an abbreviation stands for a value in scope. If a value has just this name, it is
that one. -/
structure IsOwnerValue (ix : Index) (caret : Nat) (owner : String) (e : Element) : Prop where
  inScope : e ∈ ix.elementsInScope caret
  named : e.name = owner ∨ abbreviate e.name = owner
  exact : (∃ d ∈ ix.elementsInScope caret, d.name = owner) → e.name = owner

/-- No value in scope has the owner part as its name or as its abbreviation. -/
def NoOwnerValue (ix : Index) (caret : Nat) (owner : String) : Prop :=
  ∀ e ∈ ix.elementsInScope caret, ¬ (e.name = owner ∨ abbreviate e.name = owner)

/-- The types of an index whose simple name is the owner part or has it as its abbreviation. -/
def namedTypes (ix : Index) (owner : String) : List TypeInfo :=
  ix.findTypes fun t => isOwnerName owner t.simpleName

/-- A type is in the first tier in which there are any: it is imported or in `java.lang` if one of them is,
and otherwise it is in the package of the text if one of them is. -/
structure IsInFirstTier (ix : Index) (types : List TypeInfo) (t : TypeInfo) : Prop where
  mem : t ∈ types
  imported : (∃ u ∈ types, ix.isImported u = true) → ix.isImported t = true
  package : (∀ u ∈ types, ¬ ix.isImported u = true) → (∃ u ∈ types, u.package = ix.package) →
    t.package = ix.package

/-- The owner part of an abbreviation stands for a type of the first tier. If types of this tier have just
this name, it is one of them. -/
structure IsOwnerType (ix : Index) (owner : String) (t : TypeInfo) : Prop where
  tier : ix.IsInFirstTier (ix.namedTypes owner) t
  exact : (∃ u, ix.IsInFirstTier (ix.namedTypes owner) u ∧ u.simpleName = owner) → t.simpleName = owner

lemma mem_namedTypes (h : t ∈ ix.namedTypes owner) :
    t.simpleName = owner ∨ abbreviate t.simpleName = owner := by
  rw [namedTypes, findTypes] at h
  split at h
  · exact isOwnerName_iff.mp (List.mem_filter.mp h).2
  · cases h

lemma ownerValue?_eq_none : ix.ownerValue? caret owner = none ↔ ix.NoOwnerValue caret owner := by
  rw [ownerValue?, Option.orElse_eq_none, List.head?_eq_none_iff,
    List.filter_eq_nil_iff]
  simp only [isOwnerName_iff]
  constructor
  · exact fun h => h.2
  · intro h
    refine ⟨List.find?_eq_none.mpr fun e he hname => ?_, h⟩
    exact h e (List.mem_filter.mp he).1 (.inl (beq_iff_eq.mp hname))

lemma isOwnerValue_of_ownerValue? (h : ix.ownerValue? caret owner = some e) :
    ix.IsOwnerValue caret owner e := by
  have hvalue : ∀ d, d ∈ (ix.elementsInScope caret).filter (fun e => isOwnerName owner e.name) →
      d ∈ ix.elementsInScope caret ∧ (d.name = owner ∨ abbreviate d.name = owner) := by
    intro d hd
    obtain ⟨hscope, hnamed⟩ := List.mem_filter.mp hd
    exact ⟨hscope, isOwnerName_iff.mp hnamed⟩
  rw [ownerValue?, Option.orElse_eq_some] at h
  rcases h with hexact | ⟨hnone, hfirst⟩
  · obtain ⟨hscope, hnamed⟩ := hvalue e (List.mem_of_find?_eq_some hexact)
    have hname : e.name = owner := by simpa using List.find?_some hexact
    exact ⟨hscope, hnamed, fun _ => hname⟩
  · obtain ⟨hscope, hnamed⟩ := hvalue e (List.mem_of_head? hfirst)
    refine ⟨hscope, hnamed, ?_⟩
    rintro ⟨d, hd, hname⟩
    have hmem : d ∈ (ix.elementsInScope caret).filter fun e => isOwnerName owner e.name :=
      List.mem_filter.mpr ⟨hd, isOwnerName_iff.mpr (.inl hname)⟩
    exact absurd (beq_iff_eq.mpr hname) (List.find?_eq_none.mp hnone d hmem)

/-- The first tier has the types that are in it. -/
lemma mem_firstTier {types : List TypeInfo} : t ∈ ix.firstTier types ↔ ix.IsInFirstTier types t := by
  have htier : ∀ p : TypeInfo → Bool, (!(types.filter p).isEmpty) = true ↔ ∃ u ∈ types, p u = true := by
    intro p
    simp
  have hpackage : (!(types.filter fun t => t.package == ix.package).isEmpty) = true
      ↔ ∃ u ∈ types, u.package = ix.package := by
    rw [htier]
    simp only [beq_iff_eq]
  simp only [firstTier, ownerTiers, List.map_cons, List.map_nil, List.find?_cons]
  cases himported : !(types.filter ix.isImported).isEmpty with
  | true =>
    have hsome : ∃ u ∈ types, ix.isImported u = true := (htier _).mp himported
    show t ∈ types.filter ix.isImported ↔ _
    rw [List.mem_filter]
    constructor
    · rintro ⟨ht, hit⟩
      exact ⟨ht, fun _ => hit, fun hnone => absurd hsome.choose_spec.2 (hnone _ hsome.choose_spec.1)⟩
    · exact fun h => ⟨h.mem, h.imported hsome⟩
  | false =>
    have hnone : ¬ ∃ u ∈ types, ix.isImported u = true := by
      rw [← htier, himported]
      exact Bool.false_ne_true
    have hnone' : ∀ u ∈ types, ¬ ix.isImported u = true := fun u hu hiu => hnone ⟨u, hu, hiu⟩
    cases hsame : !(types.filter fun t => t.package == ix.package).isEmpty with
    | true =>
      show t ∈ types.filter (fun t => t.package == ix.package) ↔ _
      rw [List.mem_filter, beq_iff_eq]
      constructor
      · rintro ⟨ht, hpt⟩
        exact ⟨ht, fun h => absurd h hnone, fun _ _ => hpt⟩
      · exact fun h => ⟨h.mem, h.package hnone' (hpackage.mp hsame)⟩
    | false =>
      have hother : ¬ ∃ u ∈ types, u.package = ix.package := by
        rw [← hpackage, hsame]
        exact Bool.false_ne_true
      have hall : types.filter (fun _ => true) = types := List.filter_true types
      have hlast : t ∈ ((match !types.isEmpty with
          | true => some types
          | false => none).getD []) ↔ t ∈ types := by
        cases types <;> simp
      rw [hall]
      refine hlast.trans ⟨fun ht => ⟨ht, fun h => absurd h hnone, fun _ h => absurd h hother⟩, ?_⟩
      exact fun h => h.mem

/-- Types with just the name are taken from the first tier if there are any in it. -/
lemma isOwnerType_of_mem (h : t ∈ exactFirst owner (ix.firstTier (ix.namedTypes owner))) :
    ix.IsOwnerType owner t := by
  rw [exactFirst] at h
  split at h
  · next hempty =>
    refine ⟨mem_firstTier.mp h, ?_⟩
    rintro ⟨u, hu, hname⟩
    have hmem : u ∈ (ix.firstTier (ix.namedTypes owner)).filter (·.simpleName == owner) :=
      List.mem_filter.mpr ⟨mem_firstTier.mpr hu, beq_iff_eq.mpr hname⟩
    rw [List.isEmpty_iff.mp hempty] at hmem
    cases hmem
  · obtain ⟨ht, hname⟩ := List.mem_filter.mp h
    exact ⟨mem_firstTier.mp ht, fun _ => beq_iff_eq.mp hname⟩

/-- The owner part stands for one value, or, if it names none, for types. -/
theorem ownersAt_spec (ix : Index) (caret : Nat) (owner : String) :
    (∃ e, ix.IsOwnerValue caret owner e ∧ ix.ownersAt caret owner = [.value e.name e.ty])
      ∨ ix.NoOwnerValue caret owner
        ∧ ∀ o ∈ ix.ownersAt caret owner, ∃ t, ix.IsOwnerType owner t
          ∧ o = .type (ix.mention caret t) := by
  cases hvalue : ix.ownerValue? caret owner with
  | some e =>
    refine .inl ⟨e, isOwnerValue_of_ownerValue? hvalue, ?_⟩
    rw [ownersAt, hvalue]
  | none =>
    refine .inr ⟨ownerValue?_eq_none.mp hvalue, fun o ho => ?_⟩
    rw [ownersAt, hvalue] at ho
    obtain ⟨t, ht, rfl⟩ := List.mem_map.mp ho
    exact ⟨t, isOwnerType_of_mem ht, rfl⟩

end Index

/-! ### Members -/

/-- A fragment is a member of an owner, and its name has an abbreviation: a method or field of a value that
is not static, or a static method, a static field or a nested type of a type, each named through the
owner. -/
inductive Owner.HasMember (ix : Index) (abbreviation : String) : Owner → Fragment → Prop
  | instanceMethod {name : String} {ty : Ty} {m : MethodInfo} {args : List Argument}
      (mem : m ∈ (ix.membersOf ty).methods) (isInstance : m.isStatic = false)
      (named : abbreviate m.name = abbreviation) :
      HasMember ix abbreviation (.value name ty) (.call ⟨.method (some (.value name)), m, args⟩)
  | instanceField {name : String} {ty : Ty} {field : FieldInfo}
      (mem : field ∈ (ix.membersOf ty).fields) (isInstance : field.isStatic = false)
      (named : abbreviate field.name = abbreviation) :
      HasMember ix abbreviation (.value name ty) (.access ⟨some (.value name), field⟩)
  | staticMethod {t : TypeMention} {m : MethodInfo} {args : List Argument}
      (mem : m ∈ (ix.membersOf (.named t.name)).methods) (isStatic : m.isStatic = true)
      (named : abbreviate m.name = abbreviation) :
      HasMember ix abbreviation (.type t) (.call ⟨.method (some (.type t)), m, args⟩)
  | staticField {t : TypeMention} {field : FieldInfo}
      (mem : field ∈ (ix.membersOf (.named t.name)).fields) (isStatic : field.isStatic = true)
      (named : abbreviate field.name = abbreviation) :
      HasMember ix abbreviation (.type t) (.access ⟨some (.type t), field⟩)
  | nestedType {t : TypeMention} {u : TypeInfo} (mem : u ∈ ix.allTypes) (outer : u.outer = some t.name)
      (named : abbreviate u.simpleName = abbreviation) :
      HasMember ix abbreviation (.type t)
        (.type ⟨u.name, t.written ++ "." ++ u.simpleName, t.importName⟩)

/-- Arguments make no difference to what a fragment is a member of. -/
lemma Owner.hasMember_bare {ix : Index} {abbreviation : String} {o : Owner} {f : Fragment} :
    o.HasMember ix abbreviation f.bare ↔ o.HasMember ix abbreviation f := by
  cases f with
  | call c =>
    obtain ⟨callee, m, args⟩ := c
    have hargs : ∀ {args args'}, o.HasMember ix abbreviation (.call ⟨callee, m, args⟩) →
        o.HasMember ix abbreviation (.call ⟨callee, m, args'⟩) := by
      intro args args' h
      cases h with
      | instanceMethod mem isInstance named => exact .instanceMethod mem isInstance named
      | staticMethod mem isStatic named => exact .staticMethod mem isStatic named
    exact ⟨hargs, hargs⟩
  | _ => exact Iff.rfl

/-- The collector brings members of owners. -/
def Collector.bringsMembers : Collector → Bool
  | memberCalls | staticFields | instanceFields | memberTypes => true
  | _ => false

lemma Slot.bringMembers (s : Slot) : ∀ c ∈ s.memberCollectors, c.bringsMembers = true := by
  cases s <;> simp [memberCollectors, Collector.bringsMembers]

namespace Query

variable {q : Query} {o : Owner} {f : Fragment}

lemma hasMember_of_mem_methodsOf {m : MethodInfo} (hm : m ∈ q.methodsOf o) :
    o.HasMember q.index q.abbreviation (.call ⟨.method (some o.receiver), m, []⟩) := by
  obtain ⟨hmem, hfits⟩ := List.mem_filter.mp hm
  rw [Bool.and_eq_true, beq_iff_eq] at hfits
  have hnamed : abbreviate m.name = q.abbreviation := beq_iff_eq.mp hfits.2
  cases o with
  | value name ty => exact .instanceMethod hmem hfits.1 hnamed
  | type t => exact .staticMethod hmem hfits.1 hnamed

lemma hasMember_of_mem_fieldsOf {field : FieldInfo} (hfield : field ∈ q.fieldsOf o) :
    o.HasMember q.index q.abbreviation (.access ⟨some o.receiver, field⟩) := by
  obtain ⟨hmem, hfits⟩ := List.mem_filter.mp hfield
  rw [Bool.and_eq_true, beq_iff_eq] at hfits
  have hnamed : abbreviate field.name = q.abbreviation := beq_iff_eq.mp hfits.2
  cases o with
  | value name ty => exact .instanceField hmem hfits.1 hnamed
  | type t => exact .staticField hmem hfits.1 hnamed

lemma exists_owner_of_mem_memberFields {ofTypes : Bool} (hf : f ∈ q.memberFields ofTypes) :
    ∃ o ∈ q.owners, o.HasMember q.index q.abbreviation f := by
  obtain ⟨o, ho, hf⟩ := List.mem_flatMap.mp hf
  obtain ⟨field, hfield, rfl⟩ := List.mem_map.mp hf
  exact ⟨o, (List.mem_filter.mp ho).1, hasMember_of_mem_fieldsOf hfield⟩

/-- What collectors of members bring is a member of one of the owners. -/
theorem exists_owner {c : Collector} (hc : c.bringsMembers = true) (hf : f ∈ c.collect q) :
    ∃ o ∈ q.owners, o.HasMember q.index q.abbreviation f := by
  cases c with
  | memberCalls =>
    obtain ⟨o, ho, hf⟩ := List.mem_flatMap.mp hf
    obtain ⟨m, hm, rfl⟩ := List.mem_map.mp hf
    exact ⟨o, ho, hasMember_of_mem_methodsOf hm⟩
  | staticFields => exact exists_owner_of_mem_memberFields hf
  | instanceFields => exact exists_owner_of_mem_memberFields hf
  | memberTypes =>
    obtain ⟨o, ho, hf⟩ := List.mem_flatMap.mp hf
    cases o with
    | value name ty => cases hf
    | type t =>
      obtain ⟨u, hu, rfl⟩ := List.mem_map.mp hf
      rw [nestedTypes, Index.findTypes] at hu
      split at hu
      · obtain ⟨hmem, hfits⟩ := List.mem_filter.mp hu
        rw [Bool.and_eq_true, beq_iff_eq] at hfits
        exact ⟨.type t, ho, .nestedType hmem hfits.1 (beq_iff_eq.mp hfits.2)⟩
      · cases hu
  | _ => cases hc

end Query

/-! ### Requests -/

namespace Request

variable {r : Request} {ix : Index} {settings : Settings} {res : Resolution} {owner member : String}

/-- What is asked for with an owner is the member part, of what the owner part stands for. -/
lemma query_of_splitOwner? (ix : Index)
    (h : splitOwner? r.abbreviation = some (owner, member)) :
    (r.query ix).abbreviation = member ∧ (r.query ix).owners = ix.ownersAt r.caret owner := by
  rw [query, h]
  exact ⟨rfl, rfl⟩

/-- What is offered for an abbreviation with an owner is a member of what the owner part stands for. -/
lemma exists_owner_of_mem_fragments {f : Fragment}
    (h : splitOwner? r.abbreviation = some (owner, member)) (hf : f ∈ r.fragments ix settings) :
    ∃ o ∈ ix.ownersAt r.caret owner, o.HasMember ix member f := by
  obtain ⟨g, hg, hbare⟩ := Ranking.exists_candidate hf
  obtain ⟨c, hc, hg⟩ := List.mem_flatMap.mp hg
  have hslot : c ∈ r.site.slot.memberCollectors := by
    have hmem := (List.mem_filter.mp hc).1
    rw [collectors, h] at hmem
    exact hmem
  obtain ⟨o, ho, hmember⟩ := Query.exists_owner (Slot.bringMembers _ c hslot) hg
  obtain ⟨habbreviation, howners⟩ := query_of_splitOwner? ix h
  rw [howners] at ho
  rw [habbreviation, index_query] at hmember
  rw [← Owner.hasMember_bare, ← hbare, Owner.hasMember_bare] at hmember
  exact ⟨o, ho, hmember⟩

/-- An abbreviation with a dot is resolved to members, which have the abbreviation behind its first dot:
all of one value in scope that the part before the dot stands for, or, if it names no value, each of a type
of the first tier that it stands for. -/
theorem resolve_owned (howner : Dotless owner) (habbreviation : r.abbreviation = owner ++ "." ++ member)
    (h : r.resolve ix settings = .ok res) :
    (∃ e, ix.IsOwnerValue r.caret owner e
        ∧ ∀ f ∈ res.toList, (Owner.value e.name e.ty).HasMember ix member f)
      ∨ ix.NoOwnerValue r.caret owner
        ∧ ∀ f ∈ res.toList, ∃ t, ix.IsOwnerType owner t
          ∧ (Owner.type (ix.mention r.caret t)).HasMember ix member f := by
  rw [resolve] at h
  split at h
  · cases h
  obtain rfl := Except.ok.inj h
  have hsplit : splitOwner? r.abbreviation = some (owner, member) := by
    rw [habbreviation, splitOwner?_append howner]
  have hmembers : ∀ f ∈ (Resolution.ofFragments (r.fragments ix settings)).toList,
      ∃ o ∈ ix.ownersAt r.caret owner, o.HasMember ix member f :=
    fun f hf => exists_owner_of_mem_fragments hsplit (Resolution.mem_ofFragments hf)
  rcases ix.ownersAt_spec r.caret owner with ⟨e, he, howners⟩ | ⟨hnone, htypes⟩
  · refine .inl ⟨e, he, fun f hf => ?_⟩
    obtain ⟨o, ho, hmember⟩ := hmembers f hf
    rw [howners, List.mem_singleton] at ho
    rwa [ho] at hmember
  · refine .inr ⟨hnone, fun f hf => ?_⟩
    obtain ⟨o, ho, hmember⟩ := hmembers f hf
    obtain ⟨t, ht, rfl⟩ := htypes o ho
    exact ⟨t, ht, hmember⟩

/-- In a class with a field `bx` of type `B` only a member of this field is found, and no static one of
its type. -/
theorem resolve_owned_ofField :
    let text := "class B { int total() { } static int top; static int tax() { } } class A { B bx; void m() {  } }"
    let ix := (Index.ofTree (parse text).tree []).resolve
    Dotless "b" ∧ "b.t" = "b" ++ "." ++ "t"
      ∧ ∃ f e, (ofSource text 91 "b.t").resolve ix .default = .ok (.single f)
        ∧ f.display = "bx.total()"
        ∧ ix.IsOwnerValue 91 "b" e
        ∧ (Owner.value e.name e.ty).HasMember ix "t" f := by
  intro text ix
  have howner : Dotless "b" := by simp [Dotless]
  have habbreviation : "b.t" = "b" ++ "." ++ "t" := by decide
  have herror : (ofSource text 91 "b.t").error? ix = none := by decide +kernel
  have hdisplays : ((ofSource text 91 "b.t").fragments ix .default).map (·.display)
      = ["bx.total()"] := by
    decide +kernel
  have hvalue : ¬ ix.NoOwnerValue 91 "b" := by
    rw [← Index.ownerValue?_eq_none]
    decide +kernel
  obtain ⟨f, hfragments, hdisplay⟩ := List.map_eq_singleton_iff.mp hdisplays
  have hresolve : (ofSource text 91 "b.t").resolve ix .default = .ok (.single f) := by
    rw [resolve, herror, hfragments]
    rfl
  rcases resolve_owned howner habbreviation hresolve with ⟨e, he, hmembers⟩ | ⟨hnone, -⟩
  · exact ⟨howner, habbreviation, f, e, hresolve, hdisplay, he, hmembers f (List.mem_singleton_self f)⟩
  · exact absurd hnone hvalue

end Request

end Shorthand
