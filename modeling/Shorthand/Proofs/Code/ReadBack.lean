import Shorthand.Proofs.Code.Tokens
import Shorthand.Proofs.Model.Names

/-!
The code of fragments is read back.

A fragment that is an expression is written into a text as its node is rendered. If the words of its
names are identifiers, and its arguments are values with such names or literals that stand in for
values (`Fragment.IsWritable`), the text is read as this very node, without complaint.
-/

namespace Shorthand

/-- The name is made of identifiers with dots between them. -/
def IsDottedName (name : String) : Prop := ∀ word ∈ Ty.segments name, IsIdentifier word

/-- The argument is a value with a name, or a literal that stands in for a value of some type. -/
def Argument.IsWritable : Argument → Prop
  | symbol name => IsIdentifier name
  | default literal => ∃ t, literal = defaultLiteral t

/-- The names of what is called are made of identifiers. -/
def Call.IsCallable (c : Call) : Prop :=
  match c.callee with
  | .method none => IsIdentifier c.method.name
  | .method (some receiver) => IsDottedName receiver.written ∧ IsIdentifier c.method.name
  | .constructor t => IsDottedName t.written

/-- The names in an expression are made of identifiers, and arguments that were not found are literals
that stand in for values. -/
def Fragment.IsWritable : Fragment → Prop
  | access ⟨some owner, field⟩ => IsDottedName owner.written ∧ IsDottedName field.name
  | access ⟨none, field⟩ => IsIdentifier field.name
  | call c => c.IsCallable ∧ ∀ a ∈ c.args, a.IsWritable
  | element e => IsIdentifier e.name
  | _ => True

/-- Each argument is one token. -/
lemma Argument.IsWritable.isOneToken {a : Argument} (h : a.IsWritable) : a.toNode.IsOneToken := by
  cases a with
  | symbol name => exact isOneToken_ofWord h
  | default literal =>
    obtain ⟨t, rfl⟩ := h
    exact isOneToken_defaultLiteral t

lemma IsDottedName.append {before after : String} (h : IsDottedName before)
    (h' : IsDottedName after) : IsDottedName (before ++ "." ++ after) := by
  rw [IsDottedName, Ty.segments_append]
  exact List.forall_mem_append.mpr ⟨h, h'⟩

lemma IsDottedName.exists_eq_ofWords {name : String} (h : IsDottedName name) : ∃ first words,
    (∀ word ∈ first :: words, IsIdentifier word) ∧ Node.ofName name = .ofWords first words := by
  obtain ⟨first, words, hwords⟩ := segments_eq_cons name
  exact ⟨first, words, hwords ▸ h, Node.ofName_eq_ofWords hwords⟩

lemma IsDottedName.exists_spells {name : String} (h : IsDottedName name) :
    ∃ k ks, (Node.ofName name).Spells k ks := by
  obtain ⟨first, words, hwords, hname⟩ := h.exists_eq_ofWords
  rw [hname]
  exact ⟨_, _, spells_ofWords hwords⟩

lemma Call.argumentNodes_eq (c : Call) :
    c.argumentNodes = (c.args.map Argument.toNode).map (·.inRole .argument) := by
  rw [argumentNodes, List.map_map]
  rfl

/-- A call is spelled by what is called and its arguments. -/
lemma Call.exists_spells {c : Call} (hcallee : c.IsCallable) (hargs : ∀ a ∈ c.args, a.IsWritable) :
    ∃ k ks, c.toNode.Spells k ks := by
  have hns : ∀ n ∈ c.args.map Argument.toNode, n.IsOneToken := by
    intro n hn
    obtain ⟨a, ha, rfl⟩ := List.mem_map.mp hn
    exact (hargs a ha).isOneToken
  rw [IsCallable] at hcallee
  rw [toNode, argumentNodes_eq]
  cases hcalled : c.callee with
  | method receiver =>
    rw [hcalled] at hcallee
    cases receiver with
    | none => exact exists_spells_ofCall hcallee hns
    | some receiver =>
      obtain ⟨first, words, hwords, hname⟩ := hcallee.1.exists_eq_ofWords
      simp only [Option.toList_some, List.map_singleton, hname]
      exact exists_spells_ofCall_some hwords hcallee.2 hns
  | constructor t =>
    rw [hcalled] at hcallee
    obtain ⟨first, words, hwords, hname⟩ := IsDottedName.exists_eq_ofWords hcallee
    simp only [Node.ofTypeName, hname]
    exact exists_spells_ofCreation hwords hns

/-- The text of a fragment that is an expression is read without complaint, and as this expression. -/
theorem Fragment.parseExpression_render {f : Fragment} {e : Node} (hf : f.IsWritable)
    (he : f.code = .expression e) :
    (parseExpression e.render).diagnostics = []
      ∧ (parseExpression e.render).tree.unplace = e.unplace := by
  suffices hspells : ∃ k ks, e.Spells k ks by
    obtain ⟨k, ks, h⟩ := hspells
    exact ⟨h.parseExpression.1, h.parseExpression.2.symm⟩
  cases f with
  | keyword k =>
    cases k with
    | thisKw =>
      cases he
      exact isOneToken_this.exists_spells
    | _ => cases he
  | modifier k => cases he
  | primitive p => cases he
  | type t => cases he
  | access a =>
    obtain ⟨owner, field⟩ := a
    cases owner with
    | none =>
      cases he
      exact (isOneToken_ofWord hf).exists_spells
    | some owner =>
      cases he
      exact (hf.1.append hf.2).exists_spells
  | call c =>
    cases he
    exact Call.exists_spells hf.1 hf.2
  | element e =>
    cases he
    exact (isOneToken_ofWord hf).exists_spells
  | literal l =>
    cases he
    exact (isOneToken_literalWord l).exists_spells

/-- A constructor of a nested type, with a value and a literal as arguments. -/
theorem Fragment.parseExpression_render_entry :
    let ctor : MethodInfo := ⟨"Entry", [⟨"key", .unknown⟩, ⟨"count", .primitive .long⟩],
      .void, false, "java.util.Map.Entry"⟩
    let f : Fragment := .call ⟨.constructor ⟨"java.util.Map.Entry", "Map.Entry", some "java.util.Map"⟩,
      ctor, [.symbol "key", .default "0L"]⟩
    ∃ e, f.IsWritable ∧ f.code = .expression e ∧ e.render = "new Map.Entry(key, 0L)"
      ∧ (parseExpression "new Map.Entry(key, 0L)").diagnostics = []
      ∧ (parseExpression "new Map.Entry(key, 0L)").tree.unplace = e.unplace := by
  intro ctor f
  have hsegments : Ty.segments "Map.Entry" = ["Map", "Entry"] := by decide +kernel
  have hname : IsDottedName "Map.Entry" := by
    rw [IsDottedName, hsegments]
    refine List.forall_mem_cons.mpr
      ⟨⟨⟨'M', _, rfl, rfl, rfl⟩, List.all_eq_true.mp (by decide), by decide⟩, ?_⟩
    exact List.forall_mem_singleton.mpr
      ⟨⟨'E', _, rfl, rfl, rfl⟩, List.all_eq_true.mp (by decide), by decide⟩
  have hkey : IsIdentifier "key" :=
    ⟨⟨'k', _, rfl, rfl, rfl⟩, List.all_eq_true.mp (by decide), by decide⟩
  have hargs : ∀ a ∈ [Argument.symbol "key", .default "0L"], a.IsWritable :=
    List.forall_mem_cons.mpr ⟨hkey, List.forall_mem_singleton.mpr ⟨.primitive .long, rfl⟩⟩
  have hrender : (Call.toNode ⟨.constructor ⟨"java.util.Map.Entry", "Map.Entry", some "java.util.Map"⟩,
      ctor, [.symbol "key", .default "0L"]⟩).render = "new Map.Entry(key, 0L)" := by decide +kernel
  have hf : f.IsWritable := ⟨hname, hargs⟩
  have hread := parseExpression_render hf rfl
  rw [hrender] at hread
  exact ⟨_, hf, rfl, hrender, hread⟩

end Shorthand
