import Shorthand.Fragment.Code
import Shorthand.Proofs.Token.Written

/-!
The text of the expressions that fragments are.

* `toList_render_ofWords`: a name is written as its words with dots between them.
* `render_ofCall`, `render_ofCall_some` and `render_ofCreation`: what is called is written with its
  arguments between parentheses behind it (`argumentText`).
-/

namespace Shorthand

/-- Arguments between parentheses. -/
def argumentText (args : List String) : String := "(" ++ ", ".intercalate args ++ ")"

namespace Node

open Rendered

/-- The node as it is written into its parent. -/
def rendered (n : Node) : Rendered := ⟨n.role, n.kind, n.render⟩

lemma renderAll_eq_map (ns : List Node) : renderAll ns = ns.map rendered := by
  induction ns with
  | nil => rfl
  | cons n ns ih => rw [renderAll, ih, List.map_cons, rendered]

lemma render_withChildren (kind : Kind) (ns : List Node) :
    ((detached kind).withChildren ns).render = assemble kind "" (ns.map rendered) := by
  rw [detached, leaf, withChildren, render, renderAll_eq_map]
  rfl

lemma rendered_inRole (n : Node) (role : Role) :
    (n.inRole role).rendered = ⟨role, n.kind, n.render⟩ := by
  cases n
  rfl

lemma render_ofWord (word : String) : (ofWord word).render = word := rfl

lemma render_ofLiteral (text : String) : (ofLiteral text).render = text := by
  have hleaf (kind : Kind) : ((detached kind).withText text).render = assemble kind text [] := rfl
  rw [ofLiteral, hleaf, literalKind]
  split_ifs <;> rfl

/-! ### Names -/

lemma render_longer (n : Node) (word : String) :
    (n.longer word).render = n.render ++ "." ++ word := by
  rw [longer, render_withChildren, List.map_cons, rendered_inRole, List.map_singleton,
    rendered_inRole]
  rfl

lemma toList_render_foldl (n : Node) (words : List String) :
    (words.foldl longer n).render.toList = n.render.toList ++ furtherText words := by
  induction words generalizing n with
  | nil => simp [furtherText]
  | cons word words ih =>
    rw [List.foldl_cons, ih, render_longer, furtherText, furtherText, List.flatMap_cons]
    simp

/-- A name is written as its words with dots between them. -/
lemma toList_render_ofWords (first : String) (words : List String) :
    (ofWords first words).render.toList = first.toList ++ furtherText words :=
  toList_render_foldl (ofWord first) words

/-! ### Arguments -/

lemma texts_inRole (ns : List Node) (role role' : Role) :
    texts ((ns.map (·.inRole role')).map rendered) role
      = if role' = role then ns.map render else [] := by
  induction ns with
  | nil => split <;> rfl
  | cons n ns ih =>
    rw [texts] at ih
    rw [texts, List.map_cons, List.map_cons, rendered_inRole, List.filter_cons]
    by_cases h : role' = role
    · rw [if_pos h] at ih ⊢
      rw [if_pos (by simpa using h), List.map_cons, ih, List.map_cons]
    · rw [if_neg h] at ih ⊢
      rw [if_neg (by simpa using h), ih]

lemma texts_cons (p : Rendered) (parts : List Rendered) (role : Role) :
    texts (p :: parts) role
      = if p.role = role then p.text :: texts parts role else texts parts role := by
  rw [texts, texts, List.filter_cons]
  by_cases h : p.role = role
  · simp [h]
  · simp [h]

/-! ### Calls -/

/-- The call of a method with some arguments, perhaps through a receiver. -/
def ofCall (receiver : Option Node) (method : String) (args : List Node) : Node :=
  (detached .methodInvocation).withChildren
    (receiver.toList.map (·.inRole .receiver)
      ++ (ofWord method).inRole .name :: args.map (·.inRole .argument))

/-- The creation of an object of the type with a name. -/
def ofCreation (name : Node) (args : List Node) : Node :=
  (detached .classInstanceCreation).withChildren
    (((detached .simpleType).withChildren [name.inRole .name]).inRole .type
      :: args.map (·.inRole .argument))

lemma assemble_call (parts : List Rendered) :
    assemble .methodInvocation "" parts
      = within parts "" .receiver "." ++ part parts .name ++ arguments parts := rfl

lemma assemble_creation (parts : List Rendered) :
    assemble .classInstanceCreation "" parts
      = within parts "" .receiver "." ++ "new " ++ part parts .type ++ arguments parts
        ++ within parts " " .body "" := rfl

lemma render_ofCall (method : String) (args : List Node) :
    (ofCall none method args).render = method ++ argumentText (args.map render) := by
  rw [ofCall, render_withChildren, Option.toList_none, List.map_nil, List.nil_append, List.map_cons,
    rendered_inRole, assemble_call]
  simp [-List.map_map, within, first?, part, arguments, joined, texts_cons, texts_inRole,
    render_ofWord, argumentText]

lemma render_ofCall_some (receiver : Node) (method : String) (args : List Node) :
    (ofCall (some receiver) method args).render
      = receiver.render ++ "." ++ method ++ argumentText (args.map render) := by
  rw [ofCall, render_withChildren, Option.toList_some, List.map_singleton, List.singleton_append,
    List.map_cons, List.map_cons, rendered_inRole, rendered_inRole, assemble_call]
  simp [-List.map_map, within, first?, part, arguments, joined, texts_cons, texts_inRole,
    render_ofWord, argumentText]

lemma render_ofCreation (name : Node) (args : List Node) :
    (ofCreation name args).render = "new " ++ name.render ++ argumentText (args.map render) := by
  have htype : ((detached .simpleType).withChildren [name.inRole .name]).render = name.render := by
    rw [render_withChildren, List.map_singleton, rendered_inRole]
    rfl
  rw [ofCreation, render_withChildren, List.map_cons, rendered_inRole, htype, assemble_creation]
  simp [-List.map_map, within, first?, part, arguments, joined, texts_cons, texts_inRole,
    argumentText]

end Node

end Shorthand
