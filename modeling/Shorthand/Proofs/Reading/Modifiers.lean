import Shorthand.Proofs.Reading.Parse

/-!
Looking ahead over modifiers.

Whether the declaration of a type comes next is found out by skipping its modifiers, which is coarser
than reading them: any token behind the sign of an annotation or behind a dot is skipped as a part of a
name, and arguments are skipped up to the parenthesis that closes the first one. Reading an annotation
stops where a name or an argument is not what it should be, so what is read behind the modifiers need
not be what was looked at.

* `Skips` says that skipping leads from one cursor to another, and there is an equation of this kind for
  each token that can be skipped.
* `skips_qualifiedName`, `skips_bare` and `skips_modifiers` say so of what is read, if nothing in it
  is missing and no annotation has arguments.
* `modifiers_startsTypeKeyword`: if no modifier has arguments or lacks its name, then what was seen
  ahead is what is read, up to a dot that no name follows.
-/

namespace Shorthand

namespace Node

/-- The node is a modifier without arguments, and nothing is missing in it. -/
def IsBare (n : Node) : Prop := n.children.length ≤ 1 ∧ n.containsMissing = false

lemma containsMissing_inRole (n : Node) (role : Role) :
    (n.inRole role).containsMissing = n.containsMissing := by
  cases n
  rfl

lemma containsMissing_of_anyMissing {n : Node} {ns : List Node} (h : anyMissing ns = false)
    (hn : n ∈ ns) : n.containsMissing = false := by
  induction ns with
  | nil => exact absurd hn List.not_mem_nil
  | cons k ns ih =>
    rw [anyMissing, Bool.or_eq_false_iff] at h
    rcases List.mem_cons.mp hn with rfl | hn
    · exact h.1
    · exact ih h.2 hn

/-- What is nowhere missing in a node is not missing in its parts. -/
lemma containsMissing_of_mem {n c : Node} (h : n.containsMissing = false) (hc : c ∈ n.children) :
    c.containsMissing = false := by
  cases n
  rw [containsMissing, Bool.or_eq_false_iff] at h
  exact containsMissing_of_anyMissing h.2 hc

end Node

namespace Parser

open Cursor

variable {c : Cursor} {r : Rules} {m : Nat} {role : Role}

/-- The keyword of the declaration of a type comes next, or the sign and the keyword of an annotation
type. -/
def startsTypeKeyword (c : Cursor) : Bool :=
  match c.kindAt 0 with
  | .keyword .classKw | .keyword .interfaceKw | .keyword .enumKw => true
  | .punct .atSign => c.kindAt 1 == .keyword .interfaceKw
  | _ => false

/-- Skipping leads from one cursor to another: what is seen ahead is the same from both. -/
def Skips (ahead : Ahead) (c : Cursor) (ahead' : Ahead) (c' : Cursor) : Prop :=
  startsTypeDeclaration ahead c.ahead = startsTypeDeclaration ahead' c'.ahead

lemma Skips.trans {ahead ahead' ahead'' : Ahead} {c' c'' : Cursor} (h : Skips ahead c ahead' c')
    (h' : Skips ahead' c' ahead'' c'') : Skips ahead c ahead'' c'' :=
  Eq.trans h h'

/-! ### One token at a time -/

section Ahead

variable {t : Token} {ts : List Token}

lemma kindAt_of_ahead (h : c.ahead = t :: ts) : c.kindAt 0 = t.kind := by
  rw [kindAt, Cursor.peek, h]
  rfl

lemma interface_next_iff (h : c.ahead = t :: ts) :
    c.kindAt 1 = .keyword .interfaceKw ↔ ts.head?.map (·.kind) = some (.keyword .interfaceKw) := by
  rw [kindAt, Cursor.peek, h]
  cases ts <;> simp [Token.eofAt]

/-- A modifier that is a keyword is skipped. -/
lemma skips_keyword {k : Keyword} (hk : c.kindAt 0 = .keyword k) (hmodifier : k.isModifier = true) :
    Skips .modifier c .modifier c.advance := by
  have hk' : (c.peek 0).kind = .keyword k := hk
  rw [Skips, ahead_eq_cons (by simp [hk]), startsTypeDeclaration, afterModifier, hk']
  cases k <;> first | rfl | cases hmodifier

/-- The sign of an annotation is skipped. -/
lemma skips_atSign (hk : c.kindAt 0 = .punct .atSign)
    (hinterface : c.kindAt 1 ≠ .keyword .interfaceKw) :
    Skips .modifier c .annotationName c.advance := by
  have hk' : (c.peek 0).kind = .punct .atSign := hk
  have hahead := ahead_eq_cons (c := c) (by simp [hk])
  have hnext := (interface_next_iff hahead).not.mp hinterface
  rw [Skips, hahead, startsTypeDeclaration, afterModifier, hk']
  simp only [if_neg hnext]

/-- Whatever stands for a part of a name is skipped. -/
lemma skips_name (hk : c.kindAt 0 ≠ .eof) : Skips .annotationName c .annotationEnd c.advance := by
  rw [Skips, ahead_eq_cons hk, startsTypeDeclaration]

/-- Behind a dot another part of a name is skipped. -/
lemma skips_dot (hk : c.kindAt 0 = .punct .dot) :
    Skips .annotationEnd c .annotationName c.advance := by
  have hk' : (c.peek 0).kind = .punct .dot := hk
  rw [Skips, ahead_eq_cons (by simp [hk]), startsTypeDeclaration, hk']

/-- Two parentheses with nothing between them are skipped. -/
lemma skips_parens (hk : c.kindAt 0 = .punct .openParen)
    (hclose : c.advance.kindAt 0 = .punct .closeParen) :
    Skips .annotationEnd c .modifier c.advance.advance := by
  have hk' : (c.peek 0).kind = .punct .openParen := hk
  have hclose' : (c.advance.peek 0).kind = .punct .closeParen := hclose
  rw [Skips, ahead_eq_cons (by simp [hk]), startsTypeDeclaration, hk']
  change Skips (.annotationArguments 1) c.advance _ _
  rw [Skips, ahead_eq_cons (c := c.advance) (by simp [hclose]), startsTypeDeclaration, hclose']
  rfl

/-- Behind the name of an annotation that has no arguments the next modifier can come. -/
lemma skips_marker (hdot : c.kindAt 0 ≠ .punct .dot) (hparen : c.kindAt 0 ≠ .punct .openParen) :
    Skips .annotationEnd c .modifier c := by
  rw [Skips]
  cases ha : c.ahead with
  | nil => rw [startsTypeDeclaration, startsTypeDeclaration]
  | cons t ts =>
    rw [kindAt_of_ahead ha] at hdot hparen
    rw [startsTypeDeclaration, startsTypeDeclaration]
    split
    · next h => exact absurd h hdot
    · next h => exact absurd h hparen
    · rfl

/-- Where no modifier comes, the keyword of a declaration has to come. -/
lemma startsTypeDeclaration_stop (h : startsModifier c = false) :
    startsTypeDeclaration .modifier c.ahead = startsTypeKeyword c := by
  cases ha : c.ahead with
  | nil =>
    have hk : c.kindAt 0 = .eof := by rw [kindAt, Cursor.peek, ha]; rfl
    rw [startsTypeDeclaration, startsTypeKeyword, hk]
  | cons t ts =>
    rw [startsModifier, kindAt_of_ahead ha] at h
    rw [startsTypeDeclaration, startsTypeKeyword, afterModifier, kindAt_of_ahead ha]
    cases hk : t.kind with
    | keyword k => cases k <;> simp_all [Keyword.isModifier]
    | punct p =>
      have hnext := interface_next_iff ha
      cases p <;> simp_all
    | _ => rfl

end Ahead

/-! ### Annotations -/

/-- A name that is not missing is the next token. -/
lemma ident_present : (ident role).After c fun n c' =>
    n.containsMissing = false → c.kindAt 0 ≠ .eof ∧ c' = c.advance := by
  rw [after_ident]
  split
  · next hident =>
    have hk : c.kindAt 0 ≠ .eof := startsType_ne_eof (by rw [startsType, hident, Bool.true_or])
    exact fun _ => ⟨hk, rfl⟩
  · intro h
    cases h

/-- A name in which nothing is missing is skipped to its end. -/
lemma skips_qualifiedName :
    (qualifiedName role).After c fun n c' =>
      n.containsMissing = false → Skips .annotationName c .annotationEnd c' := by
  simp only [qualifiedName, after_bind, after_start, after_pure]
  refine (After.imp ident_present fun n c₁ hn => ?_ : (ident .name).After c _)
  have hfirst : n.containsMissing = false → Skips .annotationName c .annotationEnd c₁ :=
    fun hpresent => by
      obtain ⟨hk, rfl⟩ := hn hpresent
      exact skips_name hk
  refine After.imp (after_chain
    (I := fun n c' => n.containsMissing = false → Skips .annotationName c .annotationEnd c')
    (J := fun n c' => n.containsMissing = false → Skips .annotationName c .annotationEnd c')
    hfirst fun m c₂ hm => ?_)
    fun m c₂ hm hpresent => hm.1 ((m.containsMissing_inRole role).symm.trans hpresent)
  simp only [qualifiedName.step, after_bind, after_atPunct, after_atIdent, after_pure, after_ite,
    after_bump, after_node]
  split
  · next hnext =>
    rw [Bool.and_eq_true, beq_iff_eq] at hnext
    have hdot : Takes c₂ c₂.advance := takes_advance (by simp [hnext.1])
    refine (After.and ident_placed ident_present).imp fun last c₃ h => ⟨fun y hy => ?_, by simp⟩
    obtain ⟨hplaced, hlast⟩ := h
    obtain rfl := Option.some.inj hy
    refine ⟨fun hpresent => ?_, Nat.lt_of_le_of_lt hplaced.le hdot⟩
    have hqualifier := Node.containsMissing_of_mem hpresent List.mem_cons_self
    have hname := Node.containsMissing_of_mem (c := last) hpresent
      (List.mem_cons_of_mem _ List.mem_cons_self)
    have hbefore := hm ((m.containsMissing_inRole .qualifier).symm.trans hqualifier)
    obtain ⟨hk, rfl⟩ := hlast hname
    exact (hbefore.trans (skips_dot hnext.1)).trans (skips_name hk)
  · exact ⟨by simp, fun _ => ⟨hm, Nat.le_refl _⟩⟩

/-- Only between two parentheses that follow each other nothing is read. -/
lemma annotationArguments_nil (hr : r.Good m) (hc : c.ahead.length < m) :
    (annotationArguments r).After c fun a c' =>
      a.2 = [] → c.kindAt 0 = .punct .closeParen ∧ c' = c := by
  simp only [annotationArguments, after_bind, after_atIdent, after_atPunct, after_ite, after_pure]
  split
  · next hpair =>
    rw [Bool.and_eq_true] at hpair
    -- The first round finds the name that was seen and makes a pair of it.
    have hpairs : (sepUntil notAtIdent .comma (memberValuePair r)).After c fun ns _ => ns ≠ [] := by
      refine after_iterate (I := fun ns c' => (ns = [] → (c'.kindAt 0).identName?.isSome = true)
        ∧ c'.ahead.length < m) ⟨fun _ => hpair.1, hc⟩ fun ns c' h => ?_
      obtain ⟨hstart, hlt⟩ := h
      simp only [sepUntil.round, after_bind, after_notAtIdent, after_ite, after_eat, after_pure]
      split
      · next hstop => exact ⟨by simp, fun _ hnil => by simp [hstart hnil] at hstop⟩
      · refine (memberValuePair_placed hr hlt).imp fun pair c'' hpair => ?_
        split
        · next hcomma =>
          have htakes : Takes c'' c''.advance := takes_advance (by simp [hcomma])
          have hlt' : Takes c' c''.advance := Nat.lt_of_lt_of_le htakes hpair.le
          exact ⟨fun _ => ⟨⟨by simp, Nat.lt_trans hlt' hlt⟩, hlt'⟩, by simp⟩
        · exact ⟨by simp, fun _ => by simp⟩
    exact hpairs.imp fun _ _ hne hnil => absurd hnil hne
  · split
    · next hclose => exact fun _ => ⟨beq_iff_eq.mp hclose, trivial⟩
    · exact After.imp (Q := fun _ _ => True) trivial fun _ _ _ h => absurd h (by simp)

/-- An annotation without arguments is skipped as far as it is read, unless its name ends in a dot. -/
lemma skips_bare (hr : r.Good m) (hc : c.ahead.length ≤ m) (hk : c.kindAt 0 = .punct .atSign)
    (hinterface : c.kindAt 1 ≠ .keyword .interfaceKw) :
    annotation r |>.After c fun n c' =>
      n.IsBare → c'.kindAt 0 ≠ .punct .dot → Skips .modifier c .modifier c' := by
  have htakes : Takes c c.advance := takes_advance (by simp [hk])
  have hsign : Skips .modifier c .annotationName c.advance := skips_atSign hk hinterface
  simp only [after_bind, annotation, after_start, after_bump, after_eat, after_ite, after_node,
    after_pure, reduceIte, Bool.false_eq_true]
  refine (After.and qualifiedName_placed skips_qualifiedName).imp fun name c₁ h => ?_
  obtain ⟨⟨hplaced, -⟩, hname⟩ := h
  -- What is bare has no part but its name, so reading stands behind the name or behind `()`.
  split
  · next hparen =>
    have hle := hplaced.le
    have hlt : Takes c₁ c₁.advance := takes_advance (by simp [hparen])
    refine (annotationArguments_nil hr (by omega)).imp fun a c₂ hnil => ?_
    have hbare (n : Node) (hn : n.children = name :: a.2) (h : n.IsBare) :
        name.containsMissing = false ∧ a.2 = [] := by
      refine ⟨Node.containsMissing_of_mem h.2 (by simp [hn]), List.eq_nil_of_length_eq_zero ?_⟩
      have := h.1
      rw [hn, List.length_cons] at this
      omega
    rw [after_expect]
    split
    · intro h _
      obtain ⟨hpresent, hargs⟩ := hbare _ rfl h
      obtain ⟨hclose, rfl⟩ := hnil hargs
      exact (hsign.trans (hname hpresent)).trans (skips_parens hparen hclose)
    · next hopen =>
      intro h _
      obtain ⟨hclose, rfl⟩ := hnil (hbare _ rfl h).2
      exact absurd hclose hopen
  · next hparen =>
    intro h hdot
    have hpresent := Node.containsMissing_of_mem h.2 List.mem_cons_self
    exact (hsign.trans (hname hpresent)).trans (skips_marker hdot hparen)

/-! ### All modifiers -/

/-- A modifier that comes next and is bare is skipped as far as it is read. -/
lemma skips_modifier? (hr : r.Good m) (hc : c.ahead.length ≤ m) :
    (modifier? r).After c fun o c' => ∀ n, o = some n → c.kindAt 0 ≠ .punct .dot
      ∧ (n.IsBare → c'.kindAt 0 ≠ .punct .dot → Skips .modifier c .modifier c') := by
  simp only [modifier?, after_bind, after_peek]
  split
  · next k hk =>
    have hk' : c.kindAt 0 = .keyword k := hk
    rw [after_ite]
    split
    · next hmodifier =>
      simp only [after_bind, after_leaf, after_pure]
      exact fun n _ => ⟨by simp [hk'], fun _ _ => skips_keyword hk' hmodifier⟩
    · simp [after_pure]
  · next hk =>
    have hk' : c.kindAt 0 = .punct .atSign := hk
    simp only [after_bind, after_atKeyword, after_ite, after_pure]
    split
    · simp
    · next hinterface =>
      refine (skips_bare hr hc hk' (by simpa using hinterface)).imp fun n c' hn n' h => ?_
      obtain rfl := Option.some.inj h
      exact ⟨by simp [hk'], hn⟩
  · simp [after_pure]

/-- Bare modifiers are skipped as far as they are read, unless reading stops at a dot, and no modifier
comes behind them. -/
lemma skips_modifiers (hr : r.Good m) (hc : c.ahead.length ≤ m) :
    (modifiers r).After c fun ms c' => startsModifier c' = false
      ∧ ((∀ n ∈ ms, n.IsBare) → c'.kindAt 0 ≠ .punct .dot → Skips .modifier c .modifier c') := by
  refine After.imp (after_chain
    (I := fun ms c' => c'.ahead.length ≤ m ∧ ((∀ n ∈ ms, n.IsBare) → c'.kindAt 0 ≠ .punct .dot →
      Skips .modifier c .modifier c'))
    ⟨hc, fun _ _ => rfl⟩ fun ms c₁ h => ?_) fun _ _ h => h.1
  obtain ⟨hle, hms⟩ := h
  simp only [modifiers.step, after_bind, after_pure]
  have hcomes : (modifier? r).After c₁ fun o _ => startsModifier c₁ = true → o ≠ none :=
    fun h => modifier?_some h
  refine (((modifier?_placed hr hle).and hcomes).and (skips_modifier? hr hle)).imp fun o c₂ h => ?_
  obtain ⟨⟨⟨hread, hstay⟩, hcomes⟩, hskipped⟩ := h
  cases o with
  | some n =>
    refine ⟨fun y hy => ?_, by simp⟩
    obtain rfl := Option.some.inj hy
    obtain ⟨hdot, hn⟩ := hskipped n rfl
    have htakes := (hread n rfl).takes
    refine ⟨⟨Nat.le_trans (Nat.le_of_lt htakes) hle, fun hall hdot' => ?_⟩, htakes⟩
    have hbefore := hms (fun k hk => hall k (List.mem_append_left _ hk)) hdot
    exact hbefore.trans (hn (hall n (by simp)) hdot')
  | none =>
    obtain rfl := hstay rfl
    have hlast : startsModifier c₂ = false := Bool.eq_false_iff.mpr fun h => hcomes h rfl
    exact ⟨by simp, fun _ => ⟨⟨hlast, hms⟩, Nat.le_refl _⟩⟩

/-- If no modifier has arguments and nothing is missing in any of them, then the declaration of a type
that was seen ahead is the one that reading comes to, unless reading stops at a dot. -/
theorem modifiers_startsTypeKeyword (hr : r.Good m) (hc : c.ahead.length ≤ m) :
    (modifiers r).After c fun ms c' => (∀ n ∈ ms, n.IsBare) → c'.kindAt 0 ≠ .punct .dot →
      startsTypeDeclaration .modifier c.ahead = startsTypeKeyword c' := by
  refine (skips_modifiers hr hc).imp fun ms c' h hall hdot => ?_
  calc startsTypeDeclaration .modifier c.ahead
      = startsTypeDeclaration .modifier c'.ahead := h.2 hall hdot
    _ = startsTypeKeyword c' := startsTypeDeclaration_stop h.1

/-- An array cannot be the value of a name: reading stops at its brace, inside of what was skipped. -/
example :
    let c := Cursor.ofTokens (lex "@A(x = {}) class B { }").tokens 22
    let c' := ((modifiers (rulesTo 13)).run c).2
    startsTypeDeclaration .modifier c.ahead = true ∧ startsTypeKeyword c' = false
      ∧ c'.kindAt 0 = .punct .openBrace := by
  decide +kernel

end Parser

end Shorthand
