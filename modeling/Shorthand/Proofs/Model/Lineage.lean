import Mathlib.Data.Finset.Card
import Mathlib.Data.List.Induction
import Mathlib.Data.List.Nodup
import Mathlib.Logic.Relation
import Shorthand.Model.Members

/-!
The types that a type takes its members from.

A type takes members from its superclass and interfaces and, if it is an interface, from the class of all
objects; these are its parents. `Walk` goes through types depth first, the parents of each before the
types that wait behind it, and meets each name once, with the type arguments that it has then. A bound on
the depth is not part of it.

* `Walk.unique`: there is one way to walk.
* `walk_lineage`: the lineage of a type is what is met on the walk from it, whatever leads in a circle and
  however type arguments grow. The bound on the depth is never reached, since only known names are followed,
  each of them once.
* `Walk.nodup`, `Walk.exists_ancestor`, `Walk.covers` and `Walk.closed` read off a walk what it has met:
  no name twice, nothing but ancestors, what was waited for, and the parents of all that was met.
* `exists_of_hasMetAncestor`: every ancestor is met, if a type variable that is a parent is taken for what
  it stood for when its type was met.
-/

namespace Shorthand

/-- What a type takes members from: its supertypes, and for an interface the class of all objects. -/
def TypeInfo.parents (t : TypeInfo) : List Ty :=
  t.supertypes ++ if t.kind = .interfaceType then [.object] else []

/-- The parents as they are seen from below. -/
def Ancestor.parents (a : Ancestor) : List Ty := a.info.parents.map (·.substitute a.bindings)

/-- The class of all objects is seen below an interface as it is. -/
lemma Ancestor.parents_eq (a : Ancestor) :
    a.parents = a.supertypes ++ if a.info.kind = .interfaceType then [.object] else [] := by
  rw [Ancestor.parents, TypeInfo.parents, List.map_append, Ancestor.supertypes]
  split
  · rfl
  · rfl

namespace Index

variable {ix : Index} {name : String} {args : List Ty} {seen : List String} {t u : Ty} {ts : List Ty}
  {as bs : List Ancestor} {a : Ancestor} {info : TypeInfo}

/-! ### Types by name -/

lemma lastNamed?_eq_some {types : List TypeInfo} (h : lastNamed? name types = some info) :
    info ∈ types ∧ info.name = name := by
  induction types using List.reverseRecOn with
  | nil => cases h
  | append_singleton types t ih =>
    rw [lastNamed?, List.foldl_append, ← lastNamed?, List.foldl_cons, List.foldl_nil] at h
    split at h
    · next hname =>
      obtain rfl := Option.some.inj h
      exact ⟨List.mem_append_right _ (List.mem_singleton_self t), beq_iff_eq.mp hname⟩
    · exact ⟨List.mem_append_left _ (ih h).1, (ih h).2⟩

/-- The names of all types. -/
def knownNames (ix : Index) : List String := (ix.sourceInfos ++ ix.library).map (·.name)

lemma lookup?_eq_some (h : ix.lookup? name = some info) :
    info.name = name ∧ name ∈ ix.knownNames := by
  have hmem : info ∈ ix.sourceInfos ++ ix.library ∧ info.name = name := by
    rw [lookup?, Option.orElse_eq_orElse, Option.orElse_eq_or, Option.or_eq_some_iff] at h
    rcases h with hs | ⟨-, hl⟩
    · exact (lastNamed?_eq_some hs).imp_left (List.mem_append_left _)
    · exact (lastNamed?_eq_some hl).imp_left (List.mem_append_right _)
  exact ⟨hmem.2, hmem.2 ▸ List.mem_map_of_mem hmem.1⟩

/-- The type that is known under the name of a declared type. -/
def IsKnownAs (ix : Index) (t : Ty) (info : TypeInfo) : Prop :=
  ∃ name args, t = .declared name args ∧ ix.lookup? name = some info

/-! ### Parents -/

/-- The second type is a parent of the first, with its arguments filled in. -/
inductive HasParent (ix : Index) : Ty → Ty → Prop
  | mk {name : String} {args : List Ty} {info : TypeInfo} {s : Ty}
      (found : ix.lookup? name = some info) (listed : s ∈ info.parents) :
      HasParent ix (.declared name args) (s.substitute (info.typeParams.zip args))

/-- The second type is reached from the first by going from types to parents. -/
abbrev HasAncestor (ix : Index) : Ty → Ty → Prop := Relation.ReflTransGen ix.HasParent

/-- The second type is a parent of the first. A parent that is a type variable counts only with what it
stood for when the type was met. -/
inductive HasMetParent (ix : Index) (met : List Ancestor) : Ty → Ty → Prop
  | named {name parent : String} {args params : List Ty} {info : TypeInfo}
      (found : ix.lookup? name = some info) (listed : .declared parent params ∈ info.parents) :
      HasMetParent ix met (.declared name args)
        ((Ty.declared parent params).substitute (info.typeParams.zip args))
  | asMet {name : String} {args : List Ty} {a : Ancestor} {t : Ty}
      (found : ix.lookup? name = some a.info) (first : a ∈ met) (listed : t ∈ a.parents) :
      HasMetParent ix met (.declared name args) t

/-- The second type is reached from the first by going from types to such parents. -/
abbrev HasMetAncestor (ix : Index) (met : List Ancestor) : Ty → Ty → Prop :=
  Relation.ReflTransGen (ix.HasMetParent met)

lemma hasParent_of_mem (hlookup : ix.lookup? name = some info)
    (ht : t ∈ (Ancestor.ofArgs info args).parents) : ix.HasParent (.declared name args) t := by
  obtain ⟨s, hs, rfl⟩ := List.mem_map.mp ht
  exact .mk hlookup hs

lemma hasParent_of_any (h : (ix.lookup? name).any
    (fun info => decide (t ∈ (Ancestor.ofArgs info args).parents)) = true) :
    ix.HasParent (.declared name args) t := by
  cases hlookup : ix.lookup? name with
  | none =>
    rw [hlookup] at h
    cases h
  | some info =>
    rw [hlookup] at h
    exact hasParent_of_mem hlookup (of_decide_eq_true h)

/-! ### Walks -/

/-- What is met on a walk through types that wait, the first of them first, when some names have been
seen before. -/
inductive Walk (ix : Index) : List String → List Ty → List Ancestor → Prop
  | done {seen : List String} : Walk ix seen [] []
  /-- What is not a declared type is passed over. -/
  | other {seen : List String} {t : Ty} {ts : List Ty} {as : List Ancestor}
      (h : t.qualifiedName? = none) (rest : Walk ix seen ts as) : Walk ix seen (t :: ts) as
  /-- So is a name that has been seen, whatever its arguments are now. -/
  | again {seen : List String} {name : String} {args ts : List Ty} {as : List Ancestor}
      (h : name ∈ seen) (rest : Walk ix seen ts as) : Walk ix seen (.declared name args :: ts) as
  | unknown {seen : List String} {name : String} {args ts : List Ty} {as : List Ancestor}
      (fresh : name ∉ seen) (h : ix.lookup? name = none) (rest : Walk ix (name :: seen) ts as) :
      Walk ix seen (.declared name args :: ts) as
  /-- A known type is met, and its parents come next. -/
  | known {seen : List String} {name : String} {args ts : List Ty} {info : TypeInfo}
      {as : List Ancestor} (fresh : name ∉ seen) (h : ix.lookup? name = some info)
      (rest : Walk ix (name :: seen) ((Ancestor.ofArgs info args).parents ++ ts) as) :
      Walk ix seen (.declared name args :: ts) (Ancestor.ofArgs info args :: as)

namespace Walk

/-- There is one way to walk. -/
theorem unique (h : ix.Walk seen ts as) (h' : ix.Walk seen ts bs) : as = bs := by
  induction h generalizing bs with
  | done =>
    cases h'
    rfl
  | other hother _ ih =>
    cases h' with
    | other _ rest => exact ih rest
    | again | unknown | known => cases hother
  | again hseen _ ih =>
    cases h' with
    | again _ rest => exact ih rest
    | other hother => cases hother
    | unknown fresh | known fresh => exact absurd hseen fresh
  | unknown fresh hnone _ ih =>
    cases h' with
    | unknown _ _ rest => exact ih rest
    | other hother => cases hother
    | again hseen => exact absurd hseen fresh
    | known _ hsome => cases hnone.symm.trans hsome
  | known fresh hsome _ ih =>
    cases h' with
    | known _ hsome' rest =>
      obtain rfl := Option.some.inj (hsome.symm.trans hsome')
      rw [ih rest]
    | other hother => cases hother
    | again hseen => exact absurd hseen fresh
    | unknown _ hnone => cases hnone.symm.trans hsome

/-- No name is met twice, and none that has been seen. -/
theorem nodup (h : ix.Walk seen ts as) :
    (as.map (·.info.name)).Nodup ∧ ∀ a ∈ as, a.info.name ∉ seen := by
  induction h with
  | done => exact ⟨List.nodup_nil, nofun⟩
  | other _ _ ih | again _ _ ih => exact ih
  | unknown _ _ _ ih => exact ⟨ih.1, fun a ha hseen => ih.2 a ha (List.mem_cons_of_mem _ hseen)⟩
  | @known seen name args ts info as fresh hlookup _ ih =>
    obtain rfl : info.name = name := (lookup?_eq_some hlookup).1
    refine ⟨List.nodup_cons.mpr ⟨?_, ih.1⟩, ?_⟩
    · intro hmem
      obtain ⟨a, ha, heq⟩ := List.mem_map.mp hmem
      exact ih.2 a ha (heq ▸ List.mem_cons_self)
    · intro a ha hseen
      rcases List.mem_cons.mp ha with rfl | ha
      · exact fresh hseen
      · exact ih.2 a ha (List.mem_cons_of_mem _ hseen)

/-- What is met is known under its name, and it is an ancestor of what was waited for, with the
arguments that it has as such. -/
theorem exists_ancestor (h : ix.Walk seen ts as) (ha : a ∈ as) :
    ix.lookup? a.info.name = some a.info
      ∧ ∃ t ∈ ts, ∃ args, ix.HasAncestor t (.declared a.info.name args)
        ∧ a = .ofArgs a.info args := by
  induction h with
  | done => cases ha
  | other _ _ ih | again _ _ ih | unknown _ _ _ ih =>
    obtain ⟨hlookup, t, ht, hway⟩ := ih ha
    exact ⟨hlookup, t, List.mem_cons_of_mem _ ht, hway⟩
  | @known seen name args ts info as fresh hlookup _ ih =>
    obtain rfl : info.name = name := (lookup?_eq_some hlookup).1
    rcases List.mem_cons.mp ha with rfl | ha
    · exact ⟨hlookup, _, List.mem_cons_self, args, .refl, rfl⟩
    · obtain ⟨hknown, t, ht, args', hway, heq⟩ := ih ha
      refine ⟨hknown, ?_⟩
      rcases List.mem_append.mp ht with ht | ht
      · exact ⟨_, List.mem_cons_self, args', .head (hasParent_of_mem hlookup ht) hway, heq⟩
      · exact ⟨t, List.mem_cons_of_mem _ ht, args', hway, heq⟩

/-- What was waited for is met if it is known, unless its name has been seen. -/
theorem covers (h : ix.Walk seen ts as) (ht : .declared name args ∈ ts)
    (hlookup : ix.lookup? name = some info) : name ∈ seen ∨ ∃ a ∈ as, a.info = info := by
  induction h with
  | done => cases ht
  | other hother _ ih =>
    rcases List.mem_cons.mp ht with rfl | ht
    · cases hother
    · exact ih ht
  | again hseen _ ih =>
    rcases List.mem_cons.mp ht with heq | ht
    · cases heq
      exact .inl hseen
    · exact ih ht
  | unknown _ hnone _ ih =>
    rcases List.mem_cons.mp ht with heq | ht
    · cases heq
      cases hnone.symm.trans hlookup
    · refine (ih ht).imp_left fun hseen => (List.mem_cons.mp hseen).resolve_left ?_
      rintro rfl
      cases hnone.symm.trans hlookup
  | @known seen n args' ts info' as _ hsome _ ih =>
    by_cases hname : name = n
    · subst hname
      obtain rfl := Option.some.inj (hsome.symm.trans hlookup)
      exact .inr ⟨_, List.mem_cons_self, rfl⟩
    · have hrest : name ∈ n :: seen ∨ ∃ a ∈ as, a.info = info := by
        rcases List.mem_cons.mp ht with heq | ht
        · exact absurd (Ty.declared.inj heq).1 hname
        · exact ih (List.mem_append_right _ ht)
      rcases hrest with hseen | ⟨a, ha, heq⟩
      · exact .inl ((List.mem_cons.mp hseen).resolve_left hname)
      · exact .inr ⟨a, List.mem_cons_of_mem _ ha, heq⟩

/-- The parents of what is met are met if they are known, unless their names have been seen. -/
theorem closed (h : ix.Walk seen ts as) (ha : a ∈ as) (ht : .declared name args ∈ a.parents)
    (hlookup : ix.lookup? name = some info) : name ∈ seen ∨ ∃ b ∈ as, b.info = info := by
  induction h with
  | done => cases ha
  | other _ _ ih | again _ _ ih => exact ih ha
  | unknown _ hnone _ ih =>
    refine (ih ha).imp_left fun hseen => (List.mem_cons.mp hseen).resolve_left ?_
    rintro rfl
    cases hnone.symm.trans hlookup
  | @known seen n args' ts info' as _ hsome rest ih =>
    have hmet : name ∈ n :: seen ∨ ∃ b ∈ as, b.info = info := by
      rcases List.mem_cons.mp ha with rfl | ha
      · exact rest.covers (List.mem_append_left _ ht) hlookup
      · exact ih ha
    rcases hmet with hseen | ⟨b, hb, heq⟩
    · rcases List.mem_cons.mp hseen with rfl | hseen
      · obtain rfl := Option.some.inj (hsome.symm.trans hlookup)
        exact .inr ⟨_, List.mem_cons_self, rfl⟩
      · exact .inl hseen
    · exact .inr ⟨b, List.mem_cons_of_mem _ hb, heq⟩

end Walk

/-! ### The bound on the depth -/

/-- The number of known names that have not been seen. -/
def unseen (ix : Index) (seen : List String) : Nat := (ix.knownNames.toFinset \ seen.toFinset).card

lemma unseen_le_of_subset {seen' : List String} (h : seen ⊆ seen') :
    ix.unseen seen' ≤ ix.unseen seen :=
  Finset.card_le_card (Finset.sdiff_subset_sdiff (Finset.Subset.refl _)
    fun _ hx => List.mem_toFinset.mpr (h (List.mem_toFinset.mp hx)))

lemma unseen_cons_lt (hlookup : ix.lookup? name = some info) (fresh : name ∉ seen) :
    ix.unseen (name :: seen) < ix.unseen seen := by
  rw [unseen, List.toFinset_cons, Finset.sdiff_insert]
  exact Finset.card_erase_lt_of_mem (by simp [(lookup?_eq_some hlookup).2, fresh])

lemma unseen_nil_le : ix.unseen [] ≤ ix.typeCount := by
  have hlength : ix.knownNames.length = ix.typeCount := by simp [knownNames, typeCount, sourceInfos]
  rw [unseen, ← hlength]
  exact (Finset.card_le_card Finset.sdiff_subset).trans (List.toFinset_card_le _)

/-- From one state to another some types have been gone through: what was met meanwhile is what a walk
meets first that goes through these types and then on from the second state. -/
def Leads (ix : Index) (v v' : Visit) (ts : List Ty) : Prop :=
  v.seen ⊆ v'.seen ∧ ∃ met, v'.met = v.met ++ met
    ∧ ∀ us as, ix.Walk v'.seen us as → ix.Walk v.seen (ts ++ us) (met ++ as)

namespace Leads

variable {v v' v'' : Visit} {us : List Ty}

lemma refl : Leads ix v v [] :=
  ⟨fun _ => id, [], (List.append_nil _).symm, fun _ _ h => h⟩

lemma trans (h : Leads ix v v' ts) (h' : Leads ix v' v'' us) : Leads ix v v'' (ts ++ us) := by
  obtain ⟨hseen, met, hmet, hwalk⟩ := h
  obtain ⟨hseen', met', hmet', hwalk'⟩ := h'
  refine ⟨fun _ hx => hseen' (hseen hx), met ++ met', by rw [hmet', hmet, List.append_assoc], ?_⟩
  intro ws as hrest
  rw [List.append_assoc, List.append_assoc]
  exact hwalk _ _ (hwalk' _ _ hrest)

/-- Types are gone through one after the other. -/
lemma foldl {visit : Visit → Ty → Visit} {bound : Nat}
    (h : ∀ v t, ix.unseen v.seen < bound → Leads ix v (visit v t) [t]) (ts : List Ty) (v : Visit)
    (hbound : ix.unseen v.seen < bound) : Leads ix v (ts.foldl visit v) ts := by
  induction ts generalizing v with
  | nil => exact refl
  | cons t ts ih =>
    have hfirst := h v t hbound
    exact hfirst.trans (ih _ (Nat.lt_of_le_of_lt (unseen_le_of_subset hfirst.1) hbound))

end Leads

/-- A known type is met, and then its parents are gone through. -/
lemma visit_known {depth : Nat} {v : Visit} (fresh : name ∉ v.seen)
    (hlookup : ix.lookup? name = some info) :
    ix.visit (depth + 1) v (.declared name args) =
      (Ancestor.ofArgs info args).parents.foldl (ix.visit depth)
        ⟨name :: v.seen, v.met ++ [.ofArgs info args]⟩ := by
  rw [visit, if_neg (by simpa using fresh), hlookup, Ancestor.parents_eq, List.foldl_append]
  by_cases hkind : info.kind = .interfaceType
  · simp only [hkind, Ancestor.ofArgs, if_true, List.foldl_cons, List.foldl_nil]
  · simp only [hkind, Ancestor.ofArgs, if_false, List.foldl_nil]

/-- As long as there are fewer unseen names than the bound on the depth, a visit walks. -/
lemma visit_leads (depth : Nat) (v : Visit) (t : Ty) (hdepth : ix.unseen v.seen < depth) :
    Leads ix v (ix.visit depth v t) [t] := by
  induction depth generalizing v t with
  | zero => exact absurd hdepth (Nat.not_lt_zero _)
  | succ depth ih =>
    cases t with
    | declared name args =>
      by_cases hseen : name ∈ v.seen
      · rw [visit, if_pos (by simpa using hseen)]
        exact ⟨fun _ => id, [], (List.append_nil _).symm, fun _ _ hrest => .again hseen hrest⟩
      · cases hlookup : ix.lookup? name with
        | none =>
          rw [visit, if_neg (by simpa using hseen), hlookup]
          exact ⟨fun _ => List.mem_cons_of_mem _, [], (List.append_nil _).symm,
            fun _ _ hrest => .unknown hseen hlookup hrest⟩
        | some info =>
          have hfewer : ix.unseen (name :: v.seen) < depth :=
            Nat.lt_of_lt_of_le (unseen_cons_lt hlookup hseen) (Nat.le_of_lt_succ hdepth)
          obtain ⟨hsub, met, hmet, hwalk⟩ := Leads.foldl ih (Ancestor.ofArgs info args).parents
            ⟨name :: v.seen, v.met ++ [.ofArgs info args]⟩ hfewer
          rw [visit_known hseen hlookup]
          refine ⟨fun _ hx => hsub (List.mem_cons_of_mem _ hx), .ofArgs info args :: met, ?_, ?_⟩
          · rw [hmet, List.append_assoc, List.singleton_append]
          · exact fun us as hrest => .known hseen hlookup (hwalk us as hrest)
    | _ =>
      exact ⟨fun _ => id, [], (List.append_nil _).symm, fun _ _ hrest => .other rfl hrest⟩

/-- The lineage of a type is what is met on the walk from it. -/
theorem walk_lineage (ix : Index) (t : Ty) : ix.Walk [] [t] (ix.lineage t) := by
  have hdepth : ix.unseen [] < ix.typeCount + 2 := Nat.lt_of_le_of_lt unseen_nil_le (by omega)
  obtain ⟨-, met, hmet, hwalk⟩ := visit_leads (ix.typeCount + 2) ⟨[], []⟩ t hdepth
  rw [lineage, hmet]
  simpa using hwalk [] [] .done

/-! ### Ancestors -/

/-- Every known ancestor is met, where type variables that are parents stand for what they stood for when
their types were met. -/
theorem exists_of_hasMetAncestor (h : ix.HasMetAncestor (ix.lineage t) t u)
    (hu : ix.IsKnownAs u info) : ∃ a ∈ ix.lineage t, a.info = info := by
  induction h generalizing info with
  | refl =>
    obtain ⟨name, args, rfl, hlookup⟩ := hu
    exact ((walk_lineage ix _).covers (List.mem_singleton_self _) hlookup).resolve_left nofun
  | tail _ hstep ih =>
    cases hstep with
    | named found listed =>
      -- With other arguments the parent has another type, and the same name.
      obtain ⟨a, ha, rfl⟩ := ih ⟨_, _, rfl, found⟩
      obtain ⟨parent, args, heq, hlookup⟩ := hu
      rw [Ty.substitute] at heq
      obtain ⟨rfl, -⟩ := Ty.declared.inj heq
      have hparent := List.mem_map_of_mem (f := (·.substitute a.bindings)) listed
      rw [Ty.substitute] at hparent
      exact ((walk_lineage ix _).closed ha hparent hlookup).resolve_left nofun
    | asMet found first listed =>
      obtain ⟨parent, args, rfl, hlookup⟩ := hu
      exact ((walk_lineage ix _).closed first listed hlookup).resolve_left nofun

end Index

end Shorthand
