import Mathlib.Data.List.Basic
import Mathlib.Data.List.Induction
import Mathlib.Logic.Relation
import Shorthand.Model.Resolve
import Shorthand.Proofs.Model.Names
import Shorthand.Proofs.Reading.Layout

/-!
What is recorded of the types that a text declares.

The supertypes and members of all types are filled in from a state in which none has been filled in, and
so the names that are written in them are looked at before it is known what a type inherits. A name is
looked up by the names of types alone, which never change. What was written is therefore recorded as what
it stands for afterwards, unless it is the name of a type that is inherited from a supertype.

* `Index.memberType?_eq_lookup?`: a type that inherits no type with a simple name contains what its own
  declaration contains.
* `Index.ofName_eq_named`: a written name is recorded as the type for which it stands when the text has
  been gone through.
* `Index.completed_resolve`: to fill in the types once more, from what is known then, changes nothing.
-/

namespace Shorthand

namespace Index

variable {ix : Index} {f : SourceType → SourceType} {name owner simple : String} {offset : Nat}

/-! ### Filling in -/

/-- What is filled in leaves the place and the names of a type as they are. -/
structure KeepsNames (f : SourceType → SourceType) : Prop where
  declaration (s : SourceType) : (f s).declaration = s.declaration
  name (s : SourceType) : (f s).info.name = s.info.name
  simpleName (s : SourceType) : (f s).info.simpleName = s.info.simpleName

lemma keepsNames_completed (ix : Index) : KeepsNames ix.completed :=
  ⟨fun _ => rfl, fun _ => rfl, fun _ => rfl⟩

/-- What is known about a text with its types filled in. -/
def filledBy (ix : Index) (f : SourceType → SourceType) : Index :=
  { ix with sources := ix.sources.map f }

lemma resolve_eq_filledBy (h : ix.resolved = false) :
    ix.resolve = ix.entered.filledBy ix.entered.completed := by
  rw [resolve, if_neg (by simp [h])]
  rfl

/-! ### Names of types -/

/-- Which names stand for a type depends on the names of the types only. -/
lemma lastNamed?_congr {ts us : List TypeInfo} (h : ts.map (·.name) = us.map (·.name)) :
    (lastNamed? name ts).map (·.name) = (lastNamed? name us).map (·.name) := by
  have hnames : ∀ ts : List TypeInfo,
      (lastNamed? name ts).map (·.name) = if name ∈ ts.map (·.name) then some name else none := by
    intro ts
    induction ts using List.reverseRecOn with
    | nil => rfl
    | append_singleton ts t ih =>
      rw [lastNamed?, List.foldl_append, ← lastNamed?, List.foldl_cons, List.foldl_nil]
      by_cases ht : t.name = name
      · simp [ht]
      · simp [ht, ih, Ne.symm ht]
  rw [hnames, hnames, h]

lemma lookup?_filledBy (hf : KeepsNames f) (name : String) :
    ((ix.filledBy f).lookup? name).map (·.name) = (ix.lookup? name).map (·.name) := by
  have hnames : (ix.filledBy f).sourceInfos.map (·.name) = ix.sourceInfos.map (·.name) := by
    simp [sourceInfos, filledBy, hf.name]
  simp only [lookup?, Option.orElse_eq_orElse, Option.orElse_eq_or, Option.map_or]
  rw [lastNamed?_congr hnames]
  rfl

lemma enclosingSources_filledBy (hf : KeepsNames f) (offset : Nat) :
    (ix.filledBy f).enclosingSources offset = (ix.enclosingSources offset).map f := by
  rw [enclosingSources, enclosingSources, filledBy, List.filter_map,
    List.map_mergeSort (s := fun a b => a.declaration.span.length ≤ b.declaration.span.length)]
  · simp [Function.comp_def, hf.declaration]
  · simp [hf.declaration]

/-! ### Inherited types -/

/-- The second name is that of a supertype of the type with the first name. -/
def Extends (ix : Index) (sub super : String) : Prop := super ∈ ix.supertypeNames sub

/-- A type contains no type with a simple name, and one of its supertypes contains one. -/
def Inherits (ix : Index) (owner simple : String) : Prop :=
  ix.lookup? (owner ++ "." ++ simple) = none
    ∧ ∃ base, Relation.TransGen ix.Extends owner base ∧ (ix.lookup? (base ++ "." ++ simple)).isSome

lemma memberTypeFrom_eq_none {pending seen : List String} (limit : Nat)
    (h : ∀ n ∈ pending, ∀ base, Relation.ReflTransGen ix.Extends n base →
      ix.lookup? (base ++ "." ++ simple) = none) :
    ix.memberTypeFrom simple limit pending seen = none := by
  induction limit generalizing pending seen with
  | zero => rw [memberTypeFrom]
  | succ limit ih =>
    cases pending with
    | nil => rw [memberTypeFrom]
    | cons n pending =>
      have hrest : ∀ m ∈ pending, ∀ base, Relation.ReflTransGen ix.Extends m base →
          ix.lookup? (base ++ "." ++ simple) = none :=
        fun m hm => h m (List.mem_cons_of_mem _ hm)
      rw [memberTypeFrom, h n List.mem_cons_self n .refl]
      split
      · exact ih hrest
      · refine ih fun m hm base hbase => ?_
        rcases List.mem_append.mp hm with hm | hm
        · exact h n List.mem_cons_self base (.head (List.mem_reverse.mp hm) hbase)
        · exact hrest m hm base hbase

/-- A type that inherits no type with a simple name contains what its own declaration contains. -/
theorem memberType?_eq_lookup? (h : ¬ ix.Inherits owner simple) :
    ix.memberType? owner simple = ix.lookup? (owner ++ "." ++ simple) := by
  rw [memberType?, memberTypeFrom]
  cases hown : ix.lookup? (owner ++ "." ++ simple) with
  | some t => simp
  | none =>
    refine memberTypeFrom_eq_none _ fun super hsuper base hbase => ?_
    rw [List.append_nil, List.mem_reverse] at hsuper
    by_contra hne
    exact h ⟨hown, base, .head' hsuper hbase, Option.ne_none_iff_isSome.mp hne⟩

/-- Some type around an offset inherits a type with a simple name. -/
def InheritsAround (ix : Index) (offset : Nat) (simple : String) : Prop :=
  ∃ s ∈ ix.enclosingSources offset, ix.Inherits s.info.name simple

/-! ### Written names -/

lemma findSome?_congr {α β : Type} {p q : α → Option β} {l : List α} (h : ∀ a ∈ l, p a = q a) :
    l.findSome? p = l.findSome? q := by
  induction l with
  | nil => rfl
  | cons a l ih =>
    rw [List.findSome?_cons, List.findSome?_cons, h a List.mem_cons_self,
      ih fun b hb => h b (List.mem_cons_of_mem _ hb)]

lemma enclosedType?_filledBy (hf : KeepsNames f) (h : ¬ ix.InheritsAround offset simple)
    (hfilled : ¬ (ix.filledBy f).InheritsAround offset simple) :
    ((ix.filledBy f).enclosedType? simple offset).map (·.name)
      = (ix.enclosedType? simple offset).map (·.name) := by
  rw [enclosedType?, enclosedType?, enclosingSources_filledBy hf, List.findSome?_map,
    List.map_findSome?, List.map_findSome?]
  refine findSome?_congr fun s hs => ?_
  have hown : ¬ ix.Inherits s.info.name simple := fun hinherits => h ⟨s, hs, hinherits⟩
  have hownFilled : ¬ (ix.filledBy f).Inherits s.info.name simple := by
    intro hinherits
    refine hfilled ⟨f s, ?_, by rwa [hf.name]⟩
    rw [enclosingSources_filledBy hf]
    exact List.mem_map_of_mem hs
  simp only [Function.comp_apply, hf.name, hf.simpleName]
  split
  · simp [hf.name]
  · rw [memberType?_eq_lookup? hown, memberType?_eq_lookup? hownFilled, lookup?_filledBy hf]

/-- Without inherited types, a simple name stands for the same before and after. -/
lemma simpleType?_filledBy (hf : KeepsNames f) (h : ¬ ix.InheritsAround offset simple)
    (hfilled : ¬ (ix.filledBy f).InheritsAround offset simple) :
    ((ix.filledBy f).simpleType? simple offset).map (·.name)
      = (ix.simpleType? simple offset).map (·.name) := by
  have himports : ∀ (p : Import → Bool) (target : Import → String),
      ((ix.filledBy f).imports.findSome? fun i =>
        if p i then (ix.filledBy f).lookup? (target i) else none).map (·.name)
        = (ix.imports.findSome? fun i => if p i then ix.lookup? (target i) else none).map (·.name) := by
    intro p target
    rw [List.map_findSome?, List.map_findSome?]
    refine findSome?_congr fun i _ => ?_
    simp only [Function.comp_apply]
    split
    · exact lookup?_filledBy hf _
    · rfl
  simp only [simpleType?, Option.orElse_eq_orElse, Option.orElse_eq_or, Option.map_or]
  rw [enclosedType?_filledBy hf h hfilled, lookup?_filledBy hf, lookup?_filledBy hf, himports, himports]
  rfl

/-- The first part of a name without further parts is the name. -/
lemma firstSegment_of_splitFirst? (h : splitFirst? name = none) :
    TypeInfo.firstSegment name = name := by
  rw [splitFirst?] at h
  have hne := Ty.segments_ne_nil name
  cases hsegments : Ty.segments name with
  | nil => exact absurd hsegments hne
  | cons head rest =>
    cases rest with
    | cons next rest => simp [hsegments] at h
    | nil =>
      obtain ⟨chars, hchars, rfl⟩ := List.map_eq_singleton_iff.mp hsegments
      have hjoined : ['.'].intercalate (name.toList.splitOn '.') = name.toList :=
        List.intercalate_splitOn _
      rw [hchars] at hjoined
      simp only [List.intercalate_singleton] at hjoined
      rw [TypeInfo.firstSegment, hsegments, hjoined]
      simp

lemma firstSegment_of_splitFirst?_eq_some {head rest : String}
    (h : splitFirst? name = some (head, rest)) : TypeInfo.firstSegment name = head := by
  rw [splitFirst?] at h
  split at h
  · next hsegments =>
    obtain ⟨rfl, rfl⟩ := Prod.mk.inj (Option.some.inj h)
    rw [TypeInfo.firstSegment, hsegments]
    rfl
  · cases h

/-- Without inherited types, a written name stands for the same before and after. -/
theorem writtenType?_filledBy (hf : KeepsNames f)
    (h : ¬ ix.InheritsAround offset (TypeInfo.firstSegment name))
    (hfilled : ¬ (ix.filledBy f).InheritsAround offset (TypeInfo.firstSegment name)) :
    ((ix.filledBy f).writtenType? name offset).map (·.name)
      = (ix.writtenType? name offset).map (·.name) := by
  have hsimple := simpleType?_filledBy hf h hfilled
  rw [writtenType?, writtenType?]
  cases hsplit : splitFirst? name with
  | none =>
    rw [firstSegment_of_splitFirst? hsplit] at hsimple
    exact hsimple
  | some parts =>
    obtain ⟨head, rest⟩ := parts
    rw [firstSegment_of_splitFirst?_eq_some hsplit] at hsimple
    have hinner : (((ix.filledBy f).simpleType? head offset).bind fun outer =>
        (ix.filledBy f).lookup? (outer.name ++ "." ++ rest)).map (·.name)
        = ((ix.simpleType? head offset).bind fun outer =>
          ix.lookup? (outer.name ++ "." ++ rest)).map (·.name) := by
      cases ha : ix.simpleType? head offset <;>
        cases hb : (ix.filledBy f).simpleType? head offset <;>
        simp_all [lookup?_filledBy hf]
    simp only [Option.orElse_eq_orElse, Option.orElse_eq_or, Option.map_or]
    rw [hinner, lookup?_filledBy hf]

/-! ### Recorded types -/

lemma ofName_filledBy (hf : KeepsNames f)
    (h : ¬ ix.InheritsAround offset (TypeInfo.firstSegment name))
    (hfilled : ¬ (ix.filledBy f).InheritsAround offset (TypeInfo.firstSegment name)) :
    (TypeScope.ofOffset (ix.filledBy f) offset).ofName name
      = (TypeScope.ofOffset ix offset).ofName name := by
  rw [TypeScope.ofName, TypeScope.ofName]
  simp only [TypeScope.ofOffset, writtenType?_filledBy hf h hfilled]
  rfl

/-- If a name that is not that of a type variable stands for a type when the text has been gone through,
and no type around the place inherits a type with its first part, then the name is recorded as that
type. -/
theorem ofName_eq_named {t : TypeInfo} (hunresolved : ix.resolved = false)
    (hvar : name ∉ ix.typeVariables offset)
    (hfound : ix.resolve.resolveTypeName? name offset = some t)
    (h : ¬ ix.entered.InheritsAround offset (TypeInfo.firstSegment name))
    (hresolved : ¬ ix.resolve.InheritsAround offset (TypeInfo.firstSegment name)) :
    (TypeScope.ofOffset ix.entered offset).ofName name = .named t.name := by
  rw [resolve_eq_filledBy hunresolved] at hfound hresolved
  have hkeeps := keepsNames_completed ix.entered
  have hwritten := writtenType?_filledBy hkeeps h hresolved
  rw [resolveTypeName?, if_pos (show (ix.entered.filledBy _).resolved = true from rfl)] at hfound
  rw [hfound] at hwritten
  have hvar : name ∉ ix.entered.typeVariables offset := hvar
  rw [TypeScope.ofName, if_neg (by simpa [TypeScope.ofOffset] using hvar)]
  simp [TypeScope.ofOffset, ← hwritten]

end Index

namespace TypeScope

variable {sc sc' : TypeScope}

/-- Two places agree on the names of the simple types that are written in a node. -/
def Agree (sc sc' : TypeScope) (n : Node) : Prop :=
  n.Everywhere fun m => m.kind = .simpleType →
    ∀ name, (m.child? .name).bind Node.qualifiedName? = some name → sc.ofName name = sc'.ofName name

mutual

/-- Where two places agree on the names in a type, it stands for the same. -/
lemma tyOf_congr : ∀ n : Node, sc.Agree sc' n → sc.tyOf n = sc'.tyOf n
  | ⟨kind, role, span, text, children⟩, h => by
    have hrole := fun r => tyIn_congr r children h.inner
    have hroles := fun r => tysIn_congr r children h.inner
    cases kind
    case simpleType =>
      have hname := h.own rfl
      simp only [tyOf]
      split
      · exact hname _ ‹_›
      · rfl
    -- All other types are put together from those of the children.
    all_goals simp only [tyOf, hrole, hroles]

lemma tyIn_congr (role : Role) : ∀ ns : List Node, (∀ n ∈ ns, sc.Agree sc' n) →
    sc.tyIn role ns = sc'.tyIn role ns
  | [], _ => by rw [tyIn, tyIn]
  | c :: cs, h => by
    rw [tyIn, tyIn, tyOf_congr c (h c List.mem_cons_self),
      tyIn_congr role cs fun n hn => h n (List.mem_cons_of_mem _ hn)]

lemma tysIn_congr (role : Role) : ∀ ns : List Node, (∀ n ∈ ns, sc.Agree sc' n) →
    sc.tysIn role ns = sc'.tysIn role ns
  | [], _ => by rw [tysIn, tysIn]
  | c :: cs, h => by
    rw [tysIn, tysIn, tyOf_congr c (h c List.mem_cons_self),
      tysIn_congr role cs fun n hn => h n (List.mem_cons_of_mem _ hn)]

end

end TypeScope

namespace Index

variable {ix ix' : Index} {n : Node} {s : SourceType}

/-- Two states of what is known agree on the names of the simple types that are written in a node. -/
def AgreeOn (ix ix' : Index) (n : Node) : Prop :=
  ∀ offset, (TypeScope.ofOffset ix offset).Agree (TypeScope.ofOffset ix' offset) n

lemma AgreeOn.child {c : Node} (h : AgreeOn ix ix' n) (hc : c ∈ n.children) : AgreeOn ix ix' c :=
  fun offset => (h offset).inner c hc

lemma AgreeOn.tyIn_eq (h : AgreeOn ix ix' n) (role : Role) (offset : Nat) :
    (TypeScope.ofOffset ix offset).tyIn role n.children
      = (TypeScope.ofOffset ix' offset).tyIn role n.children :=
  TypeScope.tyIn_congr role _ (h offset).inner

lemma AgreeOn.fieldsOf_eq (h : AgreeOn ix ix' n) (owner : TypeInfo) (offset : Nat) :
    fieldsOf (TypeScope.ofOffset ix offset) owner n
      = fieldsOf (TypeScope.ofOffset ix' offset) owner n := by
  simp only [fieldsOf, TypeScope.declaredTy, h.tyIn_eq]

lemma AgreeOn.callableOf?_eq (h : AgreeOn ix ix' n) (owner : String) :
    ix.callableOf? owner n = ix'.callableOf? owner n := by
  have hparams : (n.childrenWith .parameter).map
      (TypeScope.ofOffset ix (n.span.start + 1)).parameter
      = (n.childrenWith .parameter).map
        (TypeScope.ofOffset ix' (n.span.start + 1)).parameter := by
    refine List.map_congr_left fun p hp => ?_
    have hp := h.child (List.mem_of_mem_filter hp)
    simp only [TypeScope.parameter, TypeScope.declaredTy, hp.tyIn_eq]
  simp only [callableOf?, hparams, h.tyIn_eq]

lemma AgreeOn.callablesOf_eq (h : AgreeOn ix ix' n) (owner : String) :
    ix.callablesOf owner n = ix'.callablesOf owner n := by
  refine List.filterMap_congr fun m hm => ?_
  rw [(h.child (List.mem_of_mem_filter hm)).callableOf?_eq]

lemma AgreeOn.fieldsIn_eq (h : AgreeOn ix ix' n) (owner : TypeInfo) (offset : Nat) :
    ((n.childrenWith .member).flatMap fun m =>
      if m.kind = .fieldDeclaration then fieldsOf (TypeScope.ofOffset ix offset) owner m else [])
      = (n.childrenWith .member).flatMap fun m =>
        if m.kind = .fieldDeclaration then fieldsOf (TypeScope.ofOffset ix' offset) owner m else [] := by
  refine List.flatMap_congr fun m hm => ?_
  rw [(h.child (List.mem_of_mem_filter hm)).fieldsOf_eq]

/-- Where two states agree on what is written, a type is filled in with the same from both. -/
lemma AgreeOn.completed_eq (h : AgreeOn ix ix' s.declaration) : ix'.completed s = ix.completed s := by
  have hinterfaces : ∀ offset, (TypeScope.ofOffset ix offset).tysIn .superInterface _
      = (TypeScope.ofOffset ix' offset).tysIn .superInterface _ :=
    fun offset => TypeScope.tysIn_congr _ _ (h offset).inner
  simp only [completed, h.tyIn_eq, hinterfaces, h.fieldsIn_eq, h.callablesOf_eq]

/-- To fill in a type that has been filled in from the same state changes nothing. -/
lemma completed_idem (ix : Index) (s : SourceType) :
    ix.completed (ix.completed s) = ix.completed s := by
  have hfields : ∀ sc n, fieldsOf sc (ix.completed s).info n = fieldsOf sc s.info n := fun _ _ => rfl
  have hdefault : defaultConstructor (ix.completed s).info = defaultConstructor s.info := rfl
  have hdeclaration : (ix.completed s).declaration = s.declaration := rfl
  have hname : (ix.completed s).info.name = s.info.name := rfl
  have hkind : (ix.completed s).info.kind = s.info.kind := rfl
  rw [completed]
  simp only [hfields, hdefault, hdeclaration, hname, hkind]
  rw [completed]
  split <;> simp_all

/-- No type of the text inherits a type that is named like the first part of a simple type written in a
node. -/
def WritesNoInherited (ix : Index) (n : Node) : Prop :=
  n.Everywhere fun m => m.kind = .simpleType →
    ∀ name, (m.child? .name).bind Node.qualifiedName? = some name →
      ∀ offset, ¬ ix.InheritsAround offset (TypeInfo.firstSegment name)

/-- If no type of the text inherits a type that is named in it, to fill in the types once more, from what
is known when the text has been gone through, changes nothing. -/
theorem completed_resolve (hunresolved : ix.resolved = false)
    (h : ∀ s ∈ ix.entered.sources, ix.entered.WritesNoInherited s.declaration)
    (hresolved : ∀ s ∈ ix.entered.sources, ix.resolve.WritesNoInherited s.declaration) :
    ix.resolve.sources.map ix.resolve.completed = ix.resolve.sources := by
  rw [resolve_eq_filledBy hunresolved] at hresolved ⊢
  have hkeeps := keepsNames_completed ix.entered
  refine (List.map_map ..).trans (List.map_congr_left fun s hs => ?_)
  have hagree : AgreeOn ix.entered (ix.entered.filledBy ix.entered.completed) s.declaration := by
    intro offset
    refine ((h s hs).and (hresolved s hs)).imp fun m ⟨hm, hm'⟩ hkind name hname => ?_
    exact (ofName_filledBy hkeeps (hm hkind name hname offset) (hm' hkind name hname offset)).symm
  have hdeclaration : AgreeOn ix.entered (ix.entered.filledBy ix.entered.completed)
      (ix.entered.completed s).declaration := hagree
  rw [Function.comp_apply, hdeclaration.completed_eq, completed_idem]

/-- `Inner` is inherited. What it stands for is found afterwards, but not when the field is recorded. -/
example :
    let tree := (parse "class A { class Inner { } } class B extends A { Inner x; }").tree
    let ix := (Index.ofTree tree []).resolve
    ix.sourceInfos.map (·.fields.map (·.ty)) = [[], [], [.named "Inner"]]
      ∧ (ix.resolveTypeName? "Inner" 29).map (·.name) = some "A.Inner" := by
  decide +kernel

end Index

end Shorthand
