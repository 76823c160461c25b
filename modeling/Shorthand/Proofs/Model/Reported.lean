import Mathlib.Data.List.Forall2
import Shorthand.Grammar.Parse
import Shorthand.Model.Resolve
import Shorthand.Proofs.Model.Lineage

/-!
The members that are reported of a type.

The types of a lineage report their members one after the other. A field is left out if one of its name
is reported already, and a method if one of its name with the same parameters is, type arguments apart.
Both are one rule (`keepNew`): the first of several things with one key is kept.

* `nodup_keptOf`, `mem_map_keptOf` and `exists_first_of_mem_keptOf` say what is kept of a list.
* `Members.sameCall_iff`: the key of a method is its name with the erasures of its parameters.
* `Index.membersOf_declared` puts this together with the walk along which types are met.
* `Index.membersOf_variableParent`: a type that names a type variable as its superclass is met once, with
  one argument, and what the superclass would be with another argument is not looked at.
-/

namespace Shorthand

/-! ### The first of each key -/

section Keep

variable {α κ : Type} {alike : α → α → Bool} {key : α → κ} {x y : α} {xs : List α}

/-- Keeps one more thing unless one like it is kept. -/
def keepNew (alike : α → α → Bool) (kept : List α) (x : α) : List α :=
  if kept.any (alike · x) then kept else kept ++ [x]

/-- What is kept of a list. -/
def keptOf (alike : α → α → Bool) (xs : List α) : List α := xs.foldl (keepNew alike) []

lemma keptOf_append (xs ys : List α) :
    keptOf alike (xs ++ ys) = ys.foldl (keepNew alike) (keptOf alike xs) :=
  List.foldl_append ..

/-- When things are alike that have one key, a thing is kept just if its key is a new one. -/
lemma keepNew_eq [DecidableEq κ] (hkey : ∀ a b, alike a b = true ↔ key a = key b) {kept : List α} :
    keepNew alike kept x = if key x ∈ kept.map key then kept else kept ++ [x] := by
  rw [keepNew]
  refine if_congr ?_ rfl rfl
  simp only [List.any_eq_true, hkey, List.mem_map]

variable [DecidableEq κ] (hkey : ∀ a b, alike a b = true ↔ key a = key b)
include hkey

/-- Every key is kept. -/
lemma mem_map_keptOf (hx : x ∈ xs) : key x ∈ (keptOf alike xs).map key := by
  induction xs using List.reverseRecOn with
  | nil => cases hx
  | append_singleton xs z ih =>
    rw [keptOf_append, List.foldl_cons, List.foldl_nil, keepNew_eq hkey]
    rcases List.mem_append.mp hx with hx | hx
    · split
      · exact ih hx
      · rw [List.map_append]
        exact List.mem_append_left _ (ih hx)
    · obtain rfl := List.mem_singleton.mp hx
      split
      · next hmem => exact hmem
      · rw [List.map_append]
        exact List.mem_append_right _ (List.mem_singleton_self _)

/-- No key is kept twice. -/
lemma nodup_keptOf : ((keptOf alike xs).map key).Nodup := by
  induction xs using List.reverseRecOn with
  | nil => exact List.nodup_nil
  | append_singleton xs z ih =>
    rw [keptOf_append, List.foldl_cons, List.foldl_nil, keepNew_eq hkey]
    split
    · exact ih
    · next hnew =>
      rw [List.map_append, List.nodup_append]
      refine ⟨ih, List.nodup_singleton _, ?_⟩
      rintro k hk l hl rfl
      rw [List.map_singleton, List.mem_singleton] at hl
      exact hnew (hl ▸ hk)

/-- What is kept is the first thing with its key. -/
lemma exists_first_of_mem_keptOf (hy : y ∈ keptOf alike xs) :
    ∃ before after, xs = before ++ y :: after ∧ key y ∉ before.map key := by
  induction xs using List.reverseRecOn with
  | nil => cases hy
  | append_singleton xs z ih =>
    have hearlier : y ∈ keptOf alike xs →
        ∃ before after, xs ++ [z] = before ++ y :: after ∧ key y ∉ before.map key := by
      intro hy
      obtain ⟨before, after, hxs, hfirst⟩ := ih hy
      exact ⟨before, after ++ [z], by rw [hxs, List.append_assoc, List.cons_append], hfirst⟩
    rw [keptOf_append, List.foldl_cons, List.foldl_nil, keepNew_eq hkey] at hy
    split at hy
    · exact hearlier hy
    · next hnew =>
      rcases List.mem_append.mp hy with hy | hy
      · exact hearlier hy
      · obtain rfl := List.mem_singleton.mp hy
        refine ⟨xs, [], rfl, fun hmem => hnew ?_⟩
        obtain ⟨x, hx, heq⟩ := List.mem_map.mp hmem
        rw [← heq]
        exact mem_map_keptOf hkey hx

lemma mem_of_mem_keptOf (hy : y ∈ keptOf alike xs) : y ∈ xs := by
  obtain ⟨before, after, rfl, -⟩ := exists_first_of_mem_keptOf hkey hy
  exact List.mem_append_right _ List.mem_cons_self

end Keep

/-! ### Erasures -/

namespace Ty

/-- The type without its type arguments. -/
def erasure : Ty → Ty
  | declared name _ => named name
  | array element => array element.erasure
  | t => t

lemma sameErasure_iff : ∀ a b : Ty, a.sameErasure b = true ↔ a.erasure = b.erasure
  | array a, b => by
    cases b with
    | array b => simp [sameErasure, erasure, sameErasure_iff a b]
    | _ => simp [sameErasure, erasure, named]
  | declared m as, b => by cases b <;> simp [sameErasure, erasure, named]
  | primitive p, b => by cases b <;> simp [sameErasure, erasure, named]
  | var v, b => by cases b <;> simp [sameErasure, erasure, named]
  | null, b => by cases b <;> simp [sameErasure, erasure, named]
  | void, b => by cases b <;> simp [sameErasure, erasure, named]
  | unknown, b => by cases b <;> simp [sameErasure, erasure, named]

end Ty

/-- A method is told from others by its name and the erasures of its parameters. -/
def MethodInfo.erasedCall (m : MethodInfo) : String × List Ty :=
  (m.name, m.params.map (·.ty.erasure))

namespace Members

lemma sameCall_iff (m n : MethodInfo) : sameCall m n = true ↔ m.erasedCall = n.erasedCall := by
  have hparams : m.params.map (·.ty.erasure) = n.params.map (·.ty.erasure) ↔
      m.params.length = n.params.length
        ∧ ∀ p q, (p, q) ∈ m.params.zip n.params → p.ty.sameErasure q.ty = true := by
    rw [← List.forall₂_eq_eq_eq, List.forall₂_map_left_iff, List.forall₂_map_right_iff,
      List.forall₂_iff_zip]
    simp only [Ty.sameErasure_iff]
  rw [MethodInfo.erasedCall, MethodInfo.erasedCall, Prod.mk.injEq, hparams, sameCall, Bool.and_eq_true,
    Bool.and_eq_true, beq_iff_eq, beq_iff_eq, List.all_eq_true, and_assoc]
  simp only [Prod.forall]

lemma addField_eq : addField = keepNew fun f g => f.name == g.name := by
  funext fields f
  have hall : fields.all (·.name != f.name) = !fields.any (·.name == f.name) := by
    rw [List.not_any_eq_all_not]
    rfl
  rw [addField, keepNew, hall]
  cases fields.any (·.name == f.name) <;> rfl

/-- The members of several types are those that are kept of all of theirs. -/
lemma ofAncestors_eq (as : List Ancestor) :
    ofAncestors as = ⟨keptOf (fun f g => f.name == g.name) (as.flatMap (·.fields)),
      keptOf sameCall (as.flatMap (·.methods))⟩ := by
  induction as using List.reverseRecOn with
  | nil => rfl
  | append_singleton as a ih =>
    rw [ofAncestors, List.foldl_append, ← ofAncestors, ih, List.foldl_cons, List.foldl_nil, addAll,
      addField_eq, List.flatMap_append, List.flatMap_append, List.flatMap_singleton,
      List.flatMap_singleton, keptOf_append, keptOf_append]
    rfl

end Members

namespace Index

/-! ### The members of declared types -/

lemma membersOf_declared_eq (ix : Index) (name : String) (args : List Ty) :
    ix.membersOf (.declared name args) =
      ⟨keptOf (fun f g => f.name == g.name) ((ix.lineage (.declared name args)).flatMap (·.fields)),
        keptOf Members.sameCall ((ix.lineage (.declared name args)).flatMap (·.methods))⟩ :=
  Members.ofAncestors_eq _

/-- The members of a declared type are those of its lineage, which is what is met on the walk from it: known
ancestors, with the type arguments that they have when they are met. No two fields have one name, and no
two methods one name and the same parameters, type arguments apart. Each ancestor is in the lineage, where a
type variable that is a parent stands for what it stood for when its type was met, and for each of the
ancestor's members one is reported, that member or another in its place. -/
theorem membersOf_declared (ix : Index) (name : String) (args : List Ty) :
    let lineage := ix.lineage (.declared name args)
    let members := ix.membersOf (.declared name args)
    ix.Walk [] [.declared name args] lineage
      ∧ (∀ a ∈ lineage, ix.lookup? a.info.name = some a.info
        ∧ ∃ args', ix.HasAncestor (.declared name args) (.declared a.info.name args')
          ∧ a = .ofArgs a.info args')
      ∧ (members.fields.map (·.name)).Nodup
      ∧ (members.methods.map (·.erasedCall)).Nodup
      ∧ (∀ f ∈ members.fields, ∃ a ∈ lineage, f ∈ a.fields)
      ∧ (∀ m ∈ members.methods, ∃ a ∈ lineage, m ∈ a.methods)
      ∧ ∀ t info, ix.HasMetAncestor lineage (.declared name args) t → ix.IsKnownAs t info →
        ∃ a ∈ lineage, a.info = info
          ∧ (∀ f ∈ a.fields, ∃ g ∈ members.fields, g.name = f.name)
          ∧ ∀ m ∈ a.methods, ∃ n ∈ members.methods, n.erasedCall = m.erasedCall := by
  intro lineage members
  have hwalk : ix.Walk [] [.declared name args] lineage := walk_lineage ix _
  have hmembers : members = ⟨keptOf (fun f g => f.name == g.name) (lineage.flatMap (·.fields)),
      keptOf Members.sameCall (lineage.flatMap (·.methods))⟩ := membersOf_declared_eq ix name args
  have hfield : ∀ f g : FieldInfo, (f.name == g.name) = true ↔ f.name = g.name := fun _ _ => beq_iff_eq
  rw [hmembers]
  refine ⟨hwalk, ?_, nodup_keptOf hfield, nodup_keptOf Members.sameCall_iff, ?_, ?_, ?_⟩
  · intro a ha
    obtain ⟨hlookup, t, ht, hway⟩ := hwalk.exists_ancestor ha
    obtain rfl := List.mem_singleton.mp ht
    exact ⟨hlookup, hway⟩
  · intro f hf
    exact List.mem_flatMap.mp (mem_of_mem_keptOf hfield hf)
  · intro m hm
    exact List.mem_flatMap.mp (mem_of_mem_keptOf Members.sameCall_iff hm)
  · intro t info ht hknown
    obtain ⟨a, ha, hinfo⟩ := exists_of_hasMetAncestor ht hknown
    refine ⟨a, ha, hinfo, ?_, ?_⟩
    · intro f hf
      exact List.mem_map.mp (mem_map_keptOf hfield (List.mem_flatMap.mpr ⟨a, ha, hf⟩))
    · intro m hm
      exact List.mem_map.mp (mem_map_keptOf Members.sameCall_iff (List.mem_flatMap.mpr ⟨a, ha, hm⟩))

/-- The class `C` is below `A` in two ways, with the class `X` and with the class `Y` as argument, and `A`
names its argument as its superclass. So both `X` and `Y` are ancestors of `C`, but `A` is met once, with
the first of its arguments, and the field of `Y` is not reported. -/
theorem membersOf_variableParent :
    let text := "class X { int p; } class Y { int q; } class A<T> extends T { } class B extends A<X> { } "
      ++ "class C extends B implements A<Y> { }"
    let ix := (Index.ofTree (parse text).tree []).resolve
    ¬ ∀ t info, ix.HasAncestor (.named "C") t → ix.IsKnownAs t info →
      ∀ f ∈ info.fields, ∃ g ∈ (ix.membersOf (.named "C")).fields, g.name = f.name := by
  intro text ix hall
  have hevaluated : (ix.lookup? "C").any (fun info => decide (
        .declared "A" [.named "Y"] ∈ (Ancestor.ofArgs info []).parents)) = true
      ∧ (ix.lookup? "A").any (fun info => decide (
        .named "Y" ∈ (Ancestor.ofArgs info [.named "Y"]).parents)) = true
      ∧ (ix.lookup? "Y").map (·.fields.map (·.name)) = some ["q"]
      ∧ (ix.membersOf (.named "C")).fields.map (·.name) = ["p"] := by decide +kernel
  obtain ⟨hparent, hvariable, hfields, hreported⟩ := hevaluated
  obtain ⟨info, hlookup, hnames⟩ := Option.map_eq_some_iff.mp hfields
  obtain ⟨f, hf, hname⟩ := List.mem_map.mp (hnames ▸ List.mem_singleton_self "q")
  have hancestor : ix.HasAncestor (.named "C") (.named "Y") :=
    .head (hasParent_of_any hparent) (.single (hasParent_of_any hvariable))
  obtain ⟨g, hg, heq⟩ := hall _ info hancestor ⟨_, _, rfl, hlookup⟩ f hf
  have hq : "q" ∈ (ix.membersOf (.named "C")).fields.map (·.name) :=
    List.mem_map.mpr ⟨g, hg, heq.trans hname⟩
  rw [hreported] at hq
  exact absurd hq (by decide)

end Index

end Shorthand
