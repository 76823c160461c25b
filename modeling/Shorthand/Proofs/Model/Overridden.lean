import Mathlib.Data.List.Basic
import Mathlib.Logic.Relation
import Shorthand.Proofs.Model.Reported

/-!
Methods that override others.

Of the methods with one name and the same parameters the one is reported that is met first
(`exists_first_of_mem_methods`). Types are met depth first, so a type is met after one of those that have it
as a parent, not after all of them.

* `Index.isUpward_lineage`: what is met, but for the type itself, is a parent of something met before.
* `IsUpward.mem_before`: everything below a type is met before it, if there is one way up to it.
* `Index.membersOf_overriding`: a reported method is not overridden if there is one way up to its type. The
  example behind it has two: a superclass leads to an interface, and another interface overrides its method.
-/

namespace Shorthand

variable {name : String} {args : List Ty} {as before after : List Ancestor} {a b c : Ancestor}

/-! ### What is met first -/

lemma exists_parts_of_flatMap {α β : Type} {f : α → List β} {xs : List α} {pre post : List β} {y : β}
    (h : xs.flatMap f = pre ++ y :: post) :
    ∃ before x after, xs = before ++ x :: after ∧ y ∈ f x ∧ ∀ w ∈ before, ∀ z ∈ f w, z ∈ pre := by
  induction xs generalizing pre with
  | nil => simp at h
  | cons x xs ih =>
    rw [List.flatMap_cons] at h
    rcases List.append_eq_append_iff.mp h with ⟨rest, hpre, hxs⟩ | ⟨rest, hx, hy⟩
    · -- All that `x` gives stands before `y`.
      obtain ⟨before, x', after, rfl, hmem, hbefore⟩ := ih hxs
      refine ⟨x :: before, x', after, rfl, hmem, ?_⟩
      rintro w hw z hz
      rw [hpre]
      rcases List.mem_cons.mp hw with rfl | hw
      · exact List.mem_append_left _ hz
      · exact List.mem_append_right _ (hbefore w hw z hz)
    · cases rest with
      | nil =>
        -- What `x` gives ends just before `y`.
        have hxs : xs.flatMap f = [] ++ y :: post := hy.symm
        obtain ⟨before, x', after, rfl, hmem, hbefore⟩ := ih hxs
        refine ⟨x :: before, x', after, rfl, hmem, ?_⟩
        rintro w hw z hz
        rcases List.mem_cons.mp hw with rfl | hw
        · rwa [hx, List.append_nil] at hz
        · exact absurd (hbefore w hw z hz) List.not_mem_nil
      | cons y' rest =>
        obtain ⟨rfl, -⟩ := List.cons.inj hy
        exact ⟨[], x, xs, rfl, hx ▸ List.mem_append_right _ List.mem_cons_self, nofun⟩

/-- No type that is met before that of a reported method has a method of its name and parameters. -/
theorem exists_first_of_mem_methods (ix : Index) {m : MethodInfo}
    (hm : m ∈ (ix.membersOf (.declared name args)).methods) :
    ∃ before a after, ix.lineage (.declared name args) = before ++ a :: after ∧ m ∈ a.methods
      ∧ ∀ b ∈ before, ∀ n ∈ b.methods, n.erasedCall ≠ m.erasedCall := by
  rw [Index.membersOf_declared_eq] at hm
  obtain ⟨pre, post, hparts, hfirst⟩ := exists_first_of_mem_keptOf Members.sameCall_iff hm
  obtain ⟨before, a, after, hlineage, hmem, hbefore⟩ := exists_parts_of_flatMap hparts
  exact ⟨before, a, after, hlineage, hmem,
    fun b hb n hn heq => hfirst (heq ▸ List.mem_map_of_mem (hbefore b hb n hn))⟩

/-! ### The order of types -/

/-- Among some types one has another as a parent, with whatever arguments. -/
def IsBelow (as : List Ancestor) (b a : Ancestor) : Prop :=
  b ∈ as ∧ a ∈ as ∧ ∃ args, .declared a.info.name args ∈ b.parents

/-- Every type but the first is a parent of one before it. -/
def IsUpward (as : List Ancestor) : Prop :=
  ∀ before a after, as = before ++ a :: after → before = [] ∨ ∃ b ∈ before, IsBelow as b a

namespace Index

variable {ix : Index} {seen : List String} {ts : List Ty}

/-- What is met on a walk has been waited for, or it is a parent of something met before. -/
theorem Walk.exists_parent (h : ix.Walk seen ts (before ++ a :: after)) :
    (∃ args, .declared a.info.name args ∈ ts)
      ∨ ∃ b ∈ before, ∃ args, .declared a.info.name args ∈ b.parents := by
  generalize has : before ++ a :: after = as at h
  induction h generalizing before with
  | done => simp at has
  | other _ _ ih | again _ _ ih | unknown _ _ _ ih =>
    exact (ih has).imp_left fun ⟨args, h⟩ => ⟨args, List.mem_cons_of_mem _ h⟩
  | @known seen name args ts info as fresh hlookup _ ih =>
    obtain rfl : info.name = name := (lookup?_eq_some hlookup).1
    cases before with
    | nil =>
      obtain ⟨rfl, -⟩ := List.cons.inj has
      exact .inl ⟨args, List.mem_cons_self⟩
    | cons b before =>
      obtain ⟨rfl, hrest⟩ := List.cons.inj has
      rcases ih hrest with ⟨args', hwaits⟩ | ⟨b, hb, hparent⟩
      · rcases List.mem_append.mp hwaits with hparent | hwaits
        · exact .inr ⟨_, List.mem_cons_self, args', hparent⟩
        · exact .inl ⟨args', List.mem_cons_of_mem _ hwaits⟩
      · exact .inr ⟨b, List.mem_cons_of_mem _ hb, hparent⟩

/-- The types of a lineage come upward, each behind one that has it as a parent. -/
theorem isUpward_lineage (ix : Index) (name : String) (args : List Ty) :
    IsUpward (ix.lineage (.declared name args)) := by
  intro before a after has
  cases before with
  | nil => exact .inl rfl
  | cons b before =>
    refine .inr ?_
    have hwalk := walk_lineage ix (.declared name args)
    have hparent : ∃ c ∈ b :: before, ∃ args, .declared a.info.name args ∈ c.parents := by
      rw [has] at hwalk
      cases hwalk with
      | other hother => cases hother
      | again hseen => cases hseen
      | unknown _ _ rest => cases rest
      | known _ _ rest =>
        rcases rest.exists_parent with ⟨args', hwaits⟩ | ⟨c, hc, hparent⟩
        · rw [List.append_nil] at hwaits
          exact ⟨_, List.mem_cons_self, args', hwaits⟩
        · exact ⟨c, List.mem_cons_of_mem _ hc, hparent⟩
    obtain ⟨c, hc, hparent⟩ := hparent
    exact ⟨c, hc, has ▸ List.mem_append_left _ hc,
      has ▸ List.mem_append_right _ List.mem_cons_self, hparent⟩

end Index

/-- The first type is below all others. -/
lemma IsUpward.first (h : IsUpward as) {first : Ancestor} {rest : List Ancestor}
    (has : as = first :: rest) (before : List Ancestor) {a : Ancestor} {after : List Ancestor}
    (hparts : as = before ++ a :: after) : Relation.ReflTransGen (IsBelow as) first a := by
  induction hlength : before.length using Nat.strong_induction_on generalizing before a after with
  | _ length ih =>
    subst hlength
    rcases h before a after hparts with rfl | ⟨b, hb, hbelow⟩
    · obtain ⟨rfl, -⟩ := List.cons.inj (has.symm.trans hparts)
      exact .refl
    · obtain ⟨earlier, later, rfl⟩ := List.append_of_mem hb
      have hearlier : as = earlier ++ b :: (later ++ a :: after) := by
        rw [hparts, List.append_assoc, List.cons_append]
      have hlength : earlier.length < (earlier ++ b :: later).length := by
        rw [List.length_append, List.length_cons]
        omega
      exact .tail (ih _ hlength earlier hearlier rfl) hbelow

/-- If nothing is below itself and there is one way up to a type, all that is below the type stands before
it. -/
lemma IsUpward.mem_before (h : IsUpward as) (hcircle : ∀ c, ¬ Relation.TransGen (IsBelow as) c c)
    (honly : ∀ x, Relation.ReflTransGen (IsBelow as) x a →
      ∀ b c, IsBelow as b x → IsBelow as c x → b = c)
    (hb : Relation.TransGen (IsBelow as) b a) (hparts : as = before ++ a :: after) : b ∈ before := by
  have hright : ∀ {x y before after}, Relation.ReflTransGen (IsBelow as) x a → IsBelow as y x →
      as = before ++ x :: after → y ∈ before := by
    intro x y before after hx hy hparts
    rcases h before x after hparts with rfl | ⟨z, hz, hbelow⟩
    · -- Everything is above the first type, which is above nothing then.
      obtain ⟨earlier, later, hy'⟩ := List.append_of_mem hy.1
      exact absurd (.tail' (h.first hparts earlier hy') hy) (hcircle x)
    · exact honly x hx z y hbelow hy ▸ hz
  induction hb using Relation.TransGen.head_induction_on with
  | single hbelow => exact hright .refl hbelow hparts
  | head hbelow hc hmem =>
    obtain ⟨earlier, later, rfl⟩ := List.append_of_mem hmem
    have hearlier := hparts
    rw [List.append_assoc, List.cons_append] at hearlier
    exact List.mem_append_left _ (hright hc.to_reflTransGen hbelow hearlier)

namespace Index

/-- A method that is reported is that of a type of the lineage. If no type is below itself and there is one
way up to that type, no type below it has a method of the same name and parameters. -/
theorem membersOf_overriding (ix : Index) (name : String) (args : List Ty) :
    let lineage := ix.lineage (.declared name args)
    ∀ m ∈ (ix.membersOf (.declared name args)).methods, ∃ a ∈ lineage, m ∈ a.methods
      ∧ ((∀ c, ¬ Relation.TransGen (IsBelow lineage) c c) →
        (∀ x, Relation.ReflTransGen (IsBelow lineage) x a →
          ∀ b c, IsBelow lineage b x → IsBelow lineage c x → b = c) →
        ∀ b, Relation.TransGen (IsBelow lineage) b a → ∀ n ∈ b.methods, n.erasedCall ≠ m.erasedCall) := by
  intro lineage m hm
  obtain ⟨before, a, after, hlineage, hmem, hfirst⟩ := exists_first_of_mem_methods ix hm
  have ha : a ∈ lineage := by
    rw [show lineage = before ++ a :: after from hlineage]
    exact List.mem_append_right _ List.mem_cons_self
  refine ⟨a, ha, hmem, ?_⟩
  intro hcircle honly b hb
  exact hfirst b ((isUpward_lineage ix name args).mem_before hcircle honly hb hlineage)

/-- The superclass `B` leads to the interface `I`, and `J` behind it overrides the method of `I`. -/
example :
    let text := "interface I { Object m(); } interface J extends I { String m(); } "
      ++ "class B implements I { } class C extends B implements J { }"
    (((Index.ofTree (parse text).tree []).resolve.membersOf (.named "C")).methods.map
      fun m => (m.declaring, m.ret)) = [("I", .named "Object")] := by decide +kernel

end Index

end Shorthand
