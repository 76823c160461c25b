import Shorthand.Proofs.Reading.Layout

/-!
Reading types.

The rules for types place what they read, and a rule that starts where a type can start takes a token.
A rule for the types inside of another one is only used behind a token, so it is enough that it is good
where fewer tokens are ahead (`PlacesBelow`).
-/

namespace Shorthand.Parser

open Cursor

/-- A rule for types places what it reads where fewer than so many tokens are ahead. -/
def PlacesBelow (bound : Nat) (ty : Role → Parser Node) : Prop :=
  ∀ role c, c.ahead.length < bound → (ty role).After c (Placed c)

variable {ty : Role → Parser Node} {m : Nat} {c : Cursor} {role : Role}

lemma startsType_ne_eof (h : startsType (c.kindAt 0) = true) : c.kindAt 0 ≠ .eof := by
  intro heof
  simp [heof, startsType, TokenKind.identName?, isPrimitive] at h

lemma isWord_of_isPrimitive {k : TokenKind} (h : isPrimitive k = true) : isWord k = true := by
  cases k with
  | keyword => rfl
  | _ => cases h

lemma wildcardBound_placed (hty : PlacesBelow m ty) (hc : c.ahead.length < m) :
    (wildcardBound ty).After c fun o c' => PlacedAll c (o.map (·.2)).toList c' := by
  have hbound : (ty .bound).After c.advance (PlacedAll c [·]) :=
    (hty .bound c.advance (Nat.lt_of_le_of_lt (Reads.one c).le hc)).imp fun _ _ h =>
      .behind (.one c) h
  simp only [wildcardBound, after_bind, after_eatKeyword, after_ite, after_pure, reduceIte,
    Bool.false_eq_true]
  split
  · exact hbound
  · split
    · exact hbound
    · exact (Reads.refl c).placedAll

lemma typeArgument_placed (hty : PlacesBelow m ty) (hc : c.ahead.length < m) :
    (typeArgument ty).After c (Placed c) := by
  simp only [typeArgument, after_bind, after_atPunct, after_ite, after_start, after_bump]
  split
  · have hone := Reads.one c
    refine (wildcardBound_placed hty (Nat.lt_of_le_of_lt hone.le hc)).imp fun o c' ho => ?_
    have hnode := PlacedAll.behind hone ho
    cases o with
    | none => exact hnode.node (by decide) |>.inRole .typeArgument
    | some bound => exact (hnode.node (by decide) |>.withText _ rfl).inRole .typeArgument
  · exact hty .typeArgument c hc

lemma typeArguments_placed (hty : PlacesBelow m ty) (hc : c.ahead.length ≤ m)
    (hlt : c.kindAt 0 = .punct .lt) :
    (typeArguments ty).After c fun ns c' => PlacedAll c ns c' ∧ Takes c c' := by
  have htakes : Takes c c.advance := takes_advance (by simp [hlt])
  have hone := Reads.one c
  simp only [typeArguments, after_bind, after_bump, after_eat, after_ite, after_pure, reduceIte,
    Bool.false_eq_true]
  split
  · have htwo := hone.advance
    exact ⟨htwo.placedAll, Nat.lt_of_le_of_lt (Reads.one c.advance).le htakes⟩
  · have hargs : (sepBy1 .comma (typeArgument ty)).After c.advance (PlacedAll c.advance) :=
      sepBy1_placed fun c' h => typeArgument_placed hty (by have := h.le; omega)
    refine hargs.imp fun ns c' hns => ?_
    refine After.imp expect_reads fun _ c'' hgt => ?_
    have hall := (PlacedAll.behind hone hns).before hgt
    exact ⟨hall, Nat.lt_of_le_of_lt (hns.before hgt).le htakes⟩

/-- What is known of a class type while it is extended. Behind a simple type a further name takes up the
name that is there. -/
def ClassTypePlaced (c₀ : Cursor) (n : Node) (c : Cursor) : Prop :=
  Placed c₀ n c ∧ (n.kind = .simpleType → PlacedAll c₀ n.children c)

lemma ClassTypePlaced.before {c₀ c' : Cursor} {n : Node} (h : ClassTypePlaced c₀ n c)
    (hr : Reads c c') : ClassTypePlaced c₀ n c' :=
  ⟨h.1.before hr, fun hk => (h.2 hk).before hr⟩

lemma classTypeStep_placed {c₀ : Cursor} {n : Node} (hty : PlacesBelow m ty)
    (hc : c.ahead.length ≤ m) (hn : ClassTypePlaced c₀ n c) :
    (classTypeStep ty c₀.offset n).After c fun o c' =>
      (∀ n', o = some n' → ClassTypePlaced c₀ n' c' ∧ Takes c c')
        ∧ (o = none → Reads c c') := by
  simp only [classTypeStep, after_bind, after_atPunct, after_atIdent, after_ite, after_pure,
    after_bump, after_node, beq_iff_eq]
  split
  · next hlt =>
    refine (typeArguments_placed hty hc hlt).imp fun args c' ⟨hargs, htakes⟩ => ?_
    refine ⟨fun n' h => ?_, nofun⟩
    obtain rfl := Option.some.inj h
    exact ⟨⟨((hn.1.inRole .type).cons hargs).node rfl, nofun⟩, htakes⟩
  · split
    · next hdot =>
      have htakes : Takes c c.advance := takes_advance (by simp_all)
      refine After.imp ident_placed fun last c' hlast => ?_
      have hlast' := PlacedAll.behind (.one c) hlast
      split
      · next hkind =>
        have hname := ((((hn.2 hkind).take 1).map_inRole .qualifier).trans hlast').node
          (by decide : Kind.qualifiedName.isComposed = true)
        refine ⟨fun n' h => ?_, nofun⟩
        obtain rfl := Option.some.inj h
        have hall := hname.inRole .name
        exact ⟨⟨hall.node rfl, fun _ => hall⟩, Nat.lt_of_le_of_lt hlast.le htakes⟩
      · refine ⟨fun n' h => ?_, nofun⟩
        obtain rfl := Option.some.inj h
        exact ⟨⟨((hn.1.inRole .qualifier).cons hlast').node rfl, nofun⟩,
          Nat.lt_of_le_of_lt hlast.le htakes⟩
    · exact ⟨nofun, fun _ => .refl c⟩

lemma elementType_placed (hty : PlacesBelow m ty) (hc : c.ahead.length ≤ m) :
    (elementType ty).After c fun n c' =>
      Placed c n c' ∧ (startsType (c.kindAt 0) = true → Takes c c') := by
  simp only [elementType, after_bind, after_atPrimitiveType, after_ite, after_start, after_node]
  split
  · next hprim =>
    rw [after_leaf]
    exact ⟨.leaf (isWord_of_isPrimitive hprim) (by decide), fun h => takes_advance (startsType_ne_eof h)⟩
  · next hprim =>
    refine (After.and ident_placed ident_takes).imp fun name c' ⟨hname, htakes⟩ => ?_
    have hstart : ClassTypePlaced c
        ⟨.simpleType, .unplaced, c'.spanSince c.offset, none, [name]⟩ c' :=
      ⟨hname.node rfl, fun _ => hname⟩
    refine After.imp (after_chain (J := ClassTypePlaced c) hstart fun n c'' hn => ?_)
      fun n c'' ⟨hn, hle⟩ => ⟨hn.1, fun h => ?_⟩
    · refine (classTypeStep_placed hty (Nat.le_trans hn.1.le hc) hn).imp
        fun o d ⟨hsome, hnone⟩ => ⟨hsome, fun ho => ?_⟩
      have hreads := hnone ho
      exact ⟨hn.before hreads, hreads.le⟩
    · have hident : (c.kindAt 0).identName?.isSome = true := by simp_all [startsType]
      have := htakes hident
      omega

lemma arrayTypeStep_placed {c₀ : Cursor} {n : Node} (hn : Placed c₀ n c) :
    (arrayTypeStep c₀.offset n).After c fun o c' =>
      (∀ n', o = some n' → Placed c₀ n' c' ∧ Takes c c') ∧ (o = none → Reads c c') := by
  simp only [arrayTypeStep, after_bind, after_atEmptyBrackets, after_ite, after_node, after_pure]
  split
  · next hk =>
    have hc : c.kindAt 0 ≠ .eof := by simp_all
    refine ((bumpAll_reads 2).and (bumpAll_takes (by decide) hc)).imp fun _ c' ⟨hr, htakes⟩ => ?_
    refine ⟨fun n' h => ?_, nofun⟩
    obtain rfl := Option.some.inj h
    exact ⟨((hn.inRole .element).before hr).node rfl, htakes⟩
  · exact ⟨nofun, fun _ => .refl c⟩

lemma typeOver_placed (hty : PlacesBelow m ty) (hc : c.ahead.length ≤ m) :
    (typeOver ty role).After c fun n c' =>
      Placed c n c' ∧ (startsType (c.kindAt 0) = true → Takes c c') := by
  simp only [typeOver, after_bind, after_atType, after_ite, after_start, after_pure]
  split
  · refine (elementType_placed hty hc).imp fun n c' ⟨hn, htakes⟩ => ?_
    refine (chain_placed hn fun n c' hn => arrayTypeStep_placed hn).imp fun n' c'' ⟨hn', hle⟩ => ?_
    exact ⟨hn'.inRole role, fun h => Nat.lt_of_le_of_lt hle (htakes h)⟩
  · next hk => exact After.imp missing_placed fun _ _ h => ⟨h, fun h' => absurd h' hk⟩

lemma typeBelow_placed {bound : Nat} (hty : PlacesBelow m ty) (hb : bound ≤ m) :
    PlacesBelow bound (typeBelow bound ty) :=
  fun role c hc => (hty role c (Nat.lt_of_lt_of_le hc hb)).below hc

/-- A depth greater than the number of tokens ahead is deep enough. -/
lemma typeTo_placed (depth : Nat) : PlacesBelow depth (typeTo depth) := by
  induction depth with
  | zero => exact fun _ _ hc => absurd hc (Nat.not_lt_zero _)
  | succ depth ih =>
    intro role c hc
    simp only [typeTo, after_bind, after_remaining]
    have hty := typeBelow_placed ih (Nat.le_of_lt_succ hc)
    exact (typeOver_placed hty (Nat.le_refl _)).imp fun _ _ h => h.1

/-- A type is read, and where one can start a token is taken. -/
lemma type_placed : (type role).After c fun n c' =>
    Placed c n c' ∧ (startsType (c.kindAt 0) = true → Takes c c') := by
  simp only [type, after_bind, after_remaining, typeTo]
  exact typeOver_placed (typeBelow_placed (typeTo_placed _) (Nat.le_refl _)) (Nat.le_refl _)

lemma createdType_placed : createdType.After c (Placed c) := by
  simp only [createdType, after_bind, after_remaining]
  have hty := typeBelow_placed (typeTo_placed c.ahead.length) (Nat.le_refl _)
  exact (elementType_placed hty (Nat.le_refl _)).imp fun _ _ h => h.1

/-- A type that was only tried leaves no trace. -/
lemma tryType_placed : tryType.After c fun o c' =>
    (∀ n, o = some n → Placed c n c' ∧ Takes c c') ∧ (o = none → c' = c) := by
  simp only [tryType, after_bind, after_atType, after_ite, after_get, after_pure, after_rewind]
  split
  · next hk =>
    refine After.imp type_placed fun n c' ⟨hn, htakes⟩ => ?_
    split
    · exact ⟨nofun, fun _ => hn.reads.backTo_eq⟩
    · refine ⟨fun n' h => ?_, nofun⟩
      obtain rfl := Option.some.inj h
      exact ⟨hn, htakes hk⟩
  · exact ⟨nofun, fun _ => trivial⟩

lemma typeList_placed : (typeList role).After c (PlacedAll c) :=
  sepBy1_placed fun _ _ => After.imp type_placed fun _ _ h => h.1

lemma typeParameter_placed : typeParameter.After c (Placed c) := by
  simp only [typeParameter, after_bind, after_start, after_node, after_pure]
  refine After.imp ident_placed fun name c' hname => ?_
  refine (itemsIf_placed eatKeyword_reads fun c'' _ => ?_).imp fun bounds c'' hbounds => ?_
  · exact sepBy1_placed fun _ _ => After.imp type_placed fun _ _ h => h.1
  · exact (hname.cons hbounds).node (by decide) |>.inRole .typeParameter

/-- Type parameters take a token, or there are none and reading stays where it is. -/
lemma typeParameters_placed : typeParameters.After c fun ns c' =>
    PlacedAll c ns c' ∧ (Takes c c' ∨ ns = [] ∧ c' = c) := by
  simp only [typeParameters, after_bind, after_eat, after_ite, after_pure, reduceIte,
    Bool.false_eq_true]
  split
  · next hlt =>
    have htakes : Takes c c.advance := takes_advance (by simp [hlt])
    refine (sepBy1_placed fun _ _ => typeParameter_placed).imp fun ns c' hns => ?_
    refine After.imp expect_reads fun _ _ h => ?_
    have hall := hns.before h
    exact ⟨.behind (.one c) hall, .inl (Nat.lt_of_le_of_lt hall.le htakes)⟩
  · exact ⟨(Reads.refl c).placedAll, .inr ⟨trivial, trivial⟩⟩

end Shorthand.Parser
