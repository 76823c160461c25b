import Shorthand.Proofs.Reading.Layout

/-!
How trees come to be while tokens are read.

`Builds c ns c'` says that reading leads from the cursor `c` to `c'` and makes the nodes `ns` on the
way. Its constructors are the ways in which rules make nodes: tokens become leaves, nodes become the
children of other nodes, a part is missing where a complaint was made, and nodes are dropped, also with
the tokens they were read from. It asks nothing of the number of tokens ahead, so it holds of all rules
at any depth, also of those that stall.

That all rules build what they read is shown once. A property of trees then needs an induction over
`Builds` and nothing about single rules.

* `Builds.later`: complaints are only added, and reading that has stalled stays so.
* `Builds.everywhere`: what nodes have by the way they are made holds of all nodes in what is built.
* `after_iterate_builds` and the lemmas behind it say what loops build.
-/

namespace Shorthand

namespace Kind

/-- The roles of the parts, for kinds of nodes whose parts always come in one order. -/
def arrangements : Kind → List (List Role)
  | ifStatement => [[.condition, .thenBranch], [.condition, .thenBranch, .elseBranch]]
  | enhancedForStatement => [[.parameter, .expression, .body]]
  | _ => []

/-- The kinds of nodes that are made of any parts. A qualified name is made of names, and the parts of some
statements have their places. -/
def isPlain (k : Kind) : Bool := k.isComposed && k != .qualifiedName && k.arrangements.isEmpty

/-- The kinds of simple names, also of those that are missing. -/
def isWord (k : Kind) : Bool := k == .simpleName || k == .missing

lemma ne_missing_of_isLeaf {k : Kind} (h : k.isLeaf = true) : k ≠ .missing := by
  intro hk
  subst hk
  cases h

lemma arrangements_of_isLeaf {k : Kind} (h : k.isLeaf = true) : k.arrangements = [] := by
  cases k with
  | ifStatement | enhancedForStatement => cases h
  | _ => rfl

lemma ne_missing_of_isPlain {k : Kind} (h : k.isPlain = true) : k ≠ .missing := by
  intro hk
  subst hk
  cases h

lemma arrangements_of_isPlain {k : Kind} (h : k.isPlain = true) : k.arrangements = [] := by
  simp_all [isPlain]

lemma ne_missing_of_mem_arrangements {k : Kind} {roles : List Role} (h : roles ∈ k.arrangements) :
    k ≠ .missing := by
  intro hk
  subst hk
  cases h

end Kind

namespace Cursor

/-- The cursor with the note that reading has stalled. -/
def stall (c : Cursor) : Cursor := { c with stalled := true }

/-- Nothing is wrong between two cursors: no complaint was made and reading has not stalled. -/
structure Silent (c c' : Cursor) : Prop where
  problems : c'.problems = c.problems
  runs : c'.stalled = false

/-- What two cursors have to do with each other if reading leads from the first to the second. -/
structure Later (c c' : Cursor) : Prop where
  ahead : c'.ahead <:+ c.ahead
  problems : ∃ new, c'.problems = new ++ c.problems ∧ ∀ d ∈ new, d.stage = .parse
  stalled : c.stalled = true → c'.stalled = true

namespace Later

variable {c c₁ c' : Cursor}

lemma refl (c : Cursor) : Later c c := ⟨List.suffix_rfl, ⟨[], rfl, by simp⟩, id⟩

/-- Going back undoes all but that reading has stalled. -/
lemma backTo_eq (h : Later c c') : c'.backTo c = { c with stalled := c'.stalled } := by
  obtain ⟨new, hnew, -⟩ := h.problems
  exact backTo_of_problems hnew

lemma trans (h : Later c c₁) (h' : Later c₁ c') : Later c c' := by
  obtain ⟨new, hnew, hstage⟩ := h.problems
  obtain ⟨new', hnew', hstage'⟩ := h'.problems
  refine ⟨h'.ahead.trans h.ahead, ⟨new' ++ new, ?_, ?_⟩, fun hs => h'.stalled (h.stalled hs)⟩
  · rw [hnew', hnew, List.append_assoc]
  · intro d hd
    rcases List.mem_append.mp hd with hd | hd
    · exact hstage' d hd
    · exact hstage d hd

/-- If nothing is wrong on the whole way, nothing is wrong on its first part. -/
lemma silent_left (h : Later c c₁) (h' : Later c₁ c') (hs : Silent c c') : Silent c c₁ := by
  obtain ⟨new, hnew, -⟩ := h.problems
  obtain ⟨new', hnew', -⟩ := h'.problems
  have hall : new' ++ (new ++ c.problems) = c.problems := by rw [← hnew, ← hnew', hs.problems]
  have hnil : new = [] := by
    have hlength := congrArg List.length hall
    simp only [List.length_append] at hlength
    exact List.eq_nil_of_length_eq_zero (by omega)
  refine ⟨by rw [hnew, hnil, List.nil_append], Bool.eq_false_iff.mpr fun hstalled => ?_⟩
  have hstalled' := h'.stalled hstalled
  rw [hs.runs] at hstalled'
  cases hstalled'

lemma silent_right (h : Later c c₁) (h' : Later c₁ c') (hs : Silent c c') : Silent c₁ c' :=
  ⟨hs.problems.trans (h.silent_left h' hs).problems.symm, hs.runs⟩

end Later

end Cursor

namespace Parser

open Cursor

/-- The token can be the text of a simple name: a name, or the word for a constructor. -/
def isNameToken : TokenKind → Bool
  | .ident _ => true
  | .keyword k => k = .newKw
  | _ => false

/-- Reading leads from one cursor to another and makes nodes on the way. -/
inductive Builds : Cursor → List Node → Cursor → Prop
  /-- Nothing is read. -/
  | refl (c : Cursor) : Builds c [] c
  /-- A token is taken, of which no node is made. -/
  | advance (c : Cursor) : Builds c [] c.advance
  /-- A complaint is made. -/
  | complain (c : Cursor) (what : String) : Builds c [] (c.complain (c.complaint what))
  /-- Reading stalls. -/
  | stall (c : Cursor) : Builds c [] c.stall
  /-- What was read is undone. -/
  | undo {c c' : Cursor} {ns : List Node} (h : Builds c ns c') :
    Builds c [] { c with stalled := c'.stalled }
  /-- More is read behind what was read. -/
  | append {c c₁ c' : Cursor} {ns ms : List Node} (h : Builds c ns c₁) (h' : Builds c₁ ms c') :
    Builds c (ns ++ ms) c'
  /-- Nodes are dropped. -/
  | sublist {c c' : Cursor} {ns ms : List Node} (h : Builds c ns c') (hms : List.Sublist ms ns) :
    Builds c ms c'
  /-- A token becomes a leaf. -/
  | leaf {c : Cursor} {kind : Kind} {role : Role} (hkind : kind.isLeaf = true)
      (hname : kind = .simpleName → isNameToken (c.kindAt 0) = true) :
    Builds c [⟨kind, role, (c.peek 0).span, some (leafText (c.kindAt 0)), []⟩] c.advance
  /-- A part is missing where something is wrong. -/
  | missing {c c' : Cursor} {role : Role} {offset : Nat} (h : Builds c [] c')
      (hwrong : ¬ Silent c c') : Builds c [.missing role offset] c'
  /-- A node is made of what was read. -/
  | node {c c' : Cursor} {kind : Kind} {span : Span} {text : Option String} {ns : List Node}
      (hkind : kind.isPlain = true) (h : Builds c ns c') :
    Builds c [⟨kind, .unplaced, span, text, ns⟩] c'
  /-- A node is made of parts that come in the order of its kind. -/
  | arranged {c c' : Cursor} {kind : Kind} {span : Span} {ns : List Node}
      (hroles : ns.map (·.role) ∈ kind.arrangements) (h : Builds c ns c') :
    Builds c [⟨kind, .unplaced, span, none, ns⟩] c'
  /-- A name is made longer by a word. -/
  | qualifiedName {c c' : Cursor} {span : Span} {qualifier name : Node}
      (hqualifier : qualifier.role = .qualifier) (hname : name.kind.isWord = true)
      (h : Builds c [qualifier, name] c') :
    Builds c [⟨.qualifiedName, .unplaced, span, none, [qualifier, name]⟩] c'
  /-- A node plays a role. -/
  | inRole {c c' : Cursor} {n : Node} (role : Role) (h : Builds c [n] c') :
    Builds c [n.inRole role] c'
  /-- The parameter of a catch clause has a name and no type, which is not wrong. -/
  | untypedCatch {c c' : Cursor} {offset : Nat} {span span' : Span} {text : Option String}
      {modifiers rest : List Node} {name : Node} (h : Builds c (modifiers ++ name :: rest) c') :
    Builds c [⟨.catchClause, .unplaced, span, none,
      ⟨.singleVariableDeclaration, .parameter, span', text,
        modifiers ++ [.missing .type offset, name]⟩ :: rest⟩] c'

variable {c c₁ c' : Cursor} {n m : Node} {ns ms : List Node} {role : Role} {what : String}

namespace Builds

/-- Reading never takes a complaint back and never goes on after it has stalled. -/
theorem later (h : Builds c ns c') : Later c c' := by
  induction h with
  | refl c => exact .refl c
  | advance c =>
    refine ⟨?_, ⟨[], problems_advance, by simp⟩, fun hs => by rwa [stalled_advance]⟩
    rw [ahead_advance]
    exact List.tail_suffix _
  | complain c what => exact ⟨List.suffix_rfl, ⟨[c.complaint what], rfl, by simp [complaint]⟩, id⟩
  | stall c => exact ⟨List.suffix_rfl, ⟨[], rfl, by simp⟩, fun _ => rfl⟩
  | undo _ ih => exact ⟨List.suffix_rfl, ⟨[], rfl, by simp⟩, ih.stalled⟩
  | append _ _ ih ih' => exact ih.trans ih'
  | sublist _ _ ih => exact ih
  | @leaf c =>
    refine ⟨?_, ⟨[], problems_advance, by simp⟩, fun hs => by rwa [stalled_advance]⟩
    rw [ahead_advance]
    exact List.tail_suffix _
  | missing _ _ ih => exact ih
  | node _ _ ih => exact ih
  | arranged _ _ ih => exact ih
  | qualifiedName _ _ _ ih => exact ih
  | inRole _ _ ih => exact ih
  | untypedCatch _ ih => exact ih

lemma cons (h : Builds c [n] c₁) (h' : Builds c₁ ns c') : Builds c (n :: ns) c' := h.append h'

/-- What is read behind some nodes without a node of its own. -/
lemma before (h : Builds c ns c₁) (h' : Builds c₁ [] c') : Builds c ns c' := by
  simpa using h.append h'

/-- What is read before some nodes without a node of its own. -/
lemma behind (h : Builds c [] c₁) (h' : Builds c₁ ns c') : Builds c ns c' := h.append h'

/-- Nodes are dropped, and the tokens they were read from are taken. -/
lemma drop (h : Builds c ns c') : Builds c [] c' := h.sublist (List.nil_sublist _)

/-- Reading stalls behind what was read. -/
lemma stalls (h : Builds c ns c') : Builds c ns c'.stall := h.before (.stall c')

/-- Where reading stalls a part may be missing. -/
lemma missing_stall (c : Cursor) (role : Role) (offset : Nat) :
    Builds c [.missing role offset] c.stall := by
  refine .missing (.stall c) fun hs => ?_
  cases hs.runs

/-- A node with a text is made of what was read. -/
lemma nodeWithText {kind : Kind} {span : Span} {text : String} (hkind : kind.isPlain = true)
    (h : Builds c ns c') :
    Builds c [(⟨kind, .unplaced, span, none, ns⟩ : Node).withText text] c' := .node hkind h

/-- A node in a role is made of what was read. -/
lemma nodeInRole {kind : Kind} {span : Span} {text : Option String} (hkind : kind.isPlain = true)
    (h : Builds c ns c') : Builds c [⟨kind, role, span, text, ns⟩] c' :=
  (node hkind h : Builds c [⟨kind, .unplaced, span, text, ns⟩] c').inRole role

/-- Going back undoes what was read. -/
lemma backTo (h : Builds c ns c') : Builds c [] (c'.backTo c) := by
  rw [h.later.backTo_eq]
  exact h.undo

end Builds

lemma not_silent_complain (c : Cursor) (d : Diagnostic) : ¬ Silent c (c.complain d) := by
  intro hs
  have hlength := congrArg List.length hs.problems
  simp [Cursor.complain] at hlength

/-! ### What holds of all nodes that are built -/

/-- A property that nodes have by the way they are made: leaves from what holds of the tokens that become
names, and nodes with parts by their kinds, whatever the parts are. -/
structure ByMaking (T : TokenKind → Prop) (P : Node → Prop) : Prop where
  inRole : ∀ n role, P n → P (n.inRole role)
  leaf : ∀ kind role span k, kind.isLeaf = true →
    (kind = .simpleName → isNameToken k = true ∧ T k) → P ⟨kind, role, span, some (leafText k), []⟩
  missing : ∀ role offset, P (.missing role offset)
  plain : ∀ kind role span text ns, kind.isPlain = true → P ⟨kind, role, span, text, ns⟩
  arranged : ∀ kind role span ns, ns.map (·.role) ∈ kind.arrangements →
    P ⟨kind, role, span, none, ns⟩
  qualifiedName : ∀ role span qualifier name, qualifier.role = .qualifier → name.kind.isWord = true →
    P ⟨.qualifiedName, role, span, none, [qualifier, name]⟩

/-- The token that becomes a name is one of those ahead. -/
lemma kindAt_of_isNameToken {T : TokenKind → Prop} (hahead : ∀ t ∈ c.ahead, T t.kind)
    (hname : isNameToken (c.kindAt 0) = true) : T (c.kindAt 0) := by
  cases ha : c.ahead with
  | nil =>
    rw [kindAt, Cursor.peek, ha] at hname
    cases hname
  | cons t ts =>
    have hkind : c.kindAt 0 = t.kind := by
      rw [kindAt, Cursor.peek, ha]
      rfl
    rw [hkind]
    exact hahead t (by rw [ha]; exact List.mem_cons_self)

/-- What nodes have by the way they are made holds everywhere in the nodes that are built. -/
theorem Builds.everywhere {T : TokenKind → Prop} {P : Node → Prop} (hP : ByMaking T P)
    (h : Builds c ns c') (hahead : ∀ t ∈ c.ahead, T t.kind) : ∀ n ∈ ns, n.Everywhere P := by
  have hmissing : ∀ role offset, (Node.missing role offset).Everywhere P :=
    fun role offset => .mk (hP.missing role offset) (by simp [Node.missing])
  induction h with
  | refl => simp
  | advance => simp
  | complain => simp
  | stall => simp
  | undo => simp
  | append h _ ih ih' =>
    refine List.forall_mem_append.mpr ⟨ih hahead, ih' fun t ht => ?_⟩
    exact hahead t (h.later.ahead.subset ht)
  | sublist _ hms ih => exact fun n hn => ih hahead n (hms.subset hn)
  | leaf hkind hname =>
    refine List.forall_mem_singleton.mpr (.mk (hP.leaf _ _ _ _ hkind fun hsimple => ?_) (by simp))
    exact ⟨hname hsimple, kindAt_of_isNameToken hahead (hname hsimple)⟩
  | missing => exact List.forall_mem_singleton.mpr (hmissing _ _)
  | node hkind _ ih =>
    exact List.forall_mem_singleton.mpr (.mk (hP.plain _ _ _ _ _ hkind) (ih hahead))
  | arranged hroles _ ih =>
    exact List.forall_mem_singleton.mpr (.mk (hP.arranged _ _ _ _ hroles) (ih hahead))
  | qualifiedName hqualifier hname _ ih =>
    exact List.forall_mem_singleton.mpr
      (.mk (hP.qualifiedName _ _ _ _ hqualifier hname) (ih hahead))
  | inRole role _ ih =>
    have hn := List.forall_mem_singleton.mp (ih hahead)
    exact List.forall_mem_singleton.mpr (.mk (hP.inRole _ role hn.own) hn.inner)
  | untypedCatch _ ih =>
    obtain ⟨hmodifiers, hrest⟩ := List.forall_mem_append.mp (ih hahead)
    obtain ⟨hname, hrest⟩ := List.forall_mem_cons.mp hrest
    refine List.forall_mem_singleton.mpr (.mk (hP.plain _ _ _ _ _ rfl) ?_)
    refine List.forall_mem_cons.mpr ⟨.mk (hP.plain _ _ _ _ _ rfl) ?_, hrest⟩
    refine List.forall_mem_append.mpr ⟨hmodifiers, List.forall_mem_cons.mpr ⟨hmissing _ _, ?_⟩⟩
    exact List.forall_mem_singleton.mpr hname

/-- A node is read between two cursors. -/
abbrev BuildsOne (c : Cursor) (n : Node) (c' : Cursor) : Prop := Builds c [n] c'

/-- A node may be read between two cursors. -/
abbrev BuildsOption (c : Cursor) (o : Option Node) (c' : Cursor) : Prop := Builds c o.toList c'

/-! ### Steps -/

lemma leaf_builds {kind : Kind} (hkind : kind.isLeaf = true) (hname : kind ≠ .simpleName) :
    (Parser.leaf kind role).After c (BuildsOne c) := by
  rw [after_leaf]
  exact .leaf hkind fun h => absurd h hname

lemma missing_builds : (Parser.missing role what).After c (BuildsOne c) := by
  rw [after_missing]
  exact .missing (.complain c what) (not_silent_complain c _)

lemma expect_builds {p : Punct} : (expect p).After c fun _ c' => Builds c [] c' := by
  rw [after_expect]
  split
  · exact .advance c
  · exact .complain c _

/-- An operator or separator is taken, or its absence is complained about. -/
lemma expectAs_builds {p : Punct} :
    (expectAs p what).After c fun found c' => Builds c [] c' ∧ (found = false → ¬ Silent c c') := by
  rw [after_expectAs]
  split
  · exact ⟨.advance c, nofun⟩
  · exact ⟨.complain c _, fun _ => not_silent_complain c _⟩

lemma expectKeyword_builds {k : Keyword} :
    (expectKeyword k).After c fun found c' => Builds c [] c' ∧ (found = false → ¬ Silent c c') := by
  rw [after_expectKeyword]
  split
  · exact ⟨.advance c, nofun⟩
  · exact ⟨.complain c _, fun _ => not_silent_complain c _⟩

lemma eat_builds {p : Punct} : (eat p).After c fun _ c' => Builds c [] c' := by
  rw [after_eat]
  split
  · exact .advance c
  · exact .refl c

lemma eatKeyword_builds {k : Keyword} : (eatKeyword k).After c fun _ c' => Builds c [] c' := by
  rw [after_eatKeyword]
  split
  · exact .advance c
  · exact .refl c

lemma bumpAll_builds (count : Nat) : (bumpAll count).After c fun _ c' => Builds c [] c' := by
  induction count generalizing c with
  | zero => exact .refl c
  | succ count ih => exact ih.imp fun _ _ h => (Builds.advance c).before h

/-- A rule that is not used where too many tokens are ahead. -/
lemma below_builds {α : Type} {bound : Nat} {otherwise : α} {rule : Parser α}
    {Q : α → Cursor → Prop} (hrule : rule.After c Q) (hstall : Q otherwise c.stall) :
    (below bound otherwise rule).After c Q := by
  simp only [below, after_bind, after_remaining, after_ite]
  split
  · exact hrule
  · exact hstall

/-! ### Loops -/

/-- What each round of a loop preserves, and stalling does too, holds behind the loop. -/
theorem after_iterate_builds {α : Type} {round : α → Parser (α × Bool)} {I : α → Cursor → Prop} {x : α}
    (h : I x c) (hstall : ∀ x c, I x c → I x c.stall)
    (hround : ∀ x c, I x c → (round x).After c fun y c' => I y.1 c') :
    (iterate round x).After c I := by
  suffices hgo : ∀ rounds x c, I x c → (iterate.go round rounds x).After c I from hgo _ x c h
  intro rounds
  induction rounds with
  | zero => exact fun x c hx => hstall x c hx
  | succ rounds ih =>
    intro x c hx
    simp only [iterate.go, after_bind, after_remaining]
    refine (hround x c hx).imp fun y c' hy => ?_
    rw [after_ite]
    split
    · exact below_builds (ih y.1 c' hy) (hstall y.1 c' hy)
    · exact hy

lemma sepBy1_builds {sep : Punct} {item : Parser Node} (hitem : ∀ c, item.After c (BuildsOne c)) :
    (sepBy1 sep item).After c (Builds c) := by
  refine after_iterate_builds (.refl c) (fun _ _ h => h.stalls) fun ns c' h => ?_
  simp only [sepBy1.round, after_bind, after_pure]
  refine (hitem c').imp fun n c₁ hn => ?_
  exact After.imp eat_builds fun _ c₂ heat => (h.append hn).before heat

lemma sepUntil_builds {stop : Parser Bool} {s : Cursor → Bool} {sep : Punct} {item : Parser Node}
    (hstop : ∀ c R, stop.After c R ↔ R (s c) c) (hitem : ∀ c, item.After c (BuildsOne c)) :
    (sepUntil stop sep item).After c (Builds c) := by
  refine after_iterate_builds (.refl c) (fun _ _ h => h.stalls) fun ns c' h => ?_
  simp only [sepUntil.round, after_bind, after_pure, after_ite, hstop]
  split
  · exact h
  · refine (hitem c').imp fun n c₁ hn => ?_
    exact After.imp eat_builds fun _ c₂ heat => (h.append hn).before heat

lemma manyUntil_builds {stop : Parser Bool} {s : Cursor → Bool} {item : Parser (Option Node)}
    (hstop : ∀ c R, stop.After c R ↔ R (s c) c) (hitem : ∀ c, item.After c (BuildsOption c)) :
    (manyUntil stop item).After c (Builds c) := by
  refine after_iterate_builds (.refl c) (fun _ _ h => h.stalls) fun ns c' h => ?_
  simp only [manyUntil.round, after_bind, after_pure, after_ite, hstop]
  split
  · exact h
  · exact (hitem c').imp fun o c₁ ho => h.append ho

/-- What each step preserves holds of the result that steps extend. -/
lemma chain_builds {α : Type} {step : α → Parser (Option α)} {I : α → Cursor → Prop} {x : α}
    (h : I x c) (hstall : ∀ x c, I x c → I x c.stall)
    (hstep : ∀ x c, I x c → (step x).After c fun o c' => I (o.getD x) c') :
    (chain step x).After c I := by
  refine after_iterate_builds h hstall fun y c' hy => ?_
  simp only [chain.round, after_bind]
  refine (hstep y c' hy).imp fun o c₁ ho => ?_
  cases o with
  | none => exact ho
  | some z => exact ho

/-- A node that is extended by steps, of which the first part was read from the cursor `c` on. -/
lemma chain_buildsOne {c₀ : Cursor} {step : Node → Parser (Option Node)} (h : Builds c₀ [n] c)
    (hstep : ∀ n c, Builds c₀ [n] c → (step n).After c fun o c' => Builds c₀ [o.getD n] c') :
    (chain step n).After c (BuildsOne c₀) :=
  chain_builds h (fun _ _ hn => hn.stalls) hstep

lemma itemsIf_builds {condition : Parser Bool} {items : Parser (List Node)}
    (hcondition : condition.After c fun _ c' => Builds c [] c')
    (hitems : ∀ c, items.After c (Builds c)) : (itemsIf condition items).After c (Builds c) := by
  rw [after_itemsIf]
  refine hcondition.imp fun b c' h => ?_
  split
  · exact (hitems c').imp fun _ _ hns => .behind h hns
  · exact h

lemma itemIf_builds {condition : Parser Bool} {item : Parser Node}
    (hcondition : condition.After c fun _ c' => Builds c [] c')
    (hitem : ∀ c, item.After c (BuildsOne c)) : (itemIf condition item).After c (Builds c) :=
  itemsIf_builds hcondition fun c' => hitem c'

lemma skipEmptyBrackets_builds : skipEmptyBrackets.After c fun _ c' => Builds c [] c' := by
  refine chain_builds (I := fun _ c' => Builds c [] c') (.refl c) (fun _ _ h => h.stalls)
    fun _ c' h => ?_
  simp only [skipEmptyBrackets.step, after_bind, after_atEmptyBrackets, after_ite, after_pure]
  split
  · exact (bumpAll_builds 2).imp fun _ _ h' => h.before h'
  · exact h

/-! ### Names -/

lemma ident_builds : (ident role).After c (BuildsOne c) := by
  simp only [ident, after_bind, after_peek]
  split
  · next name hk =>
    rw [after_leaf]
    exact .leaf (by decide) fun _ => by rw [kindAt, hk]; rfl
  · exact missing_builds

lemma ident_isWord : (ident role).After c fun n _ => n.kind.isWord = true := by
  simp only [ident, after_bind, after_peek]
  split
  · rfl
  · rfl

lemma qualifiedName_builds : (qualifiedName role).After c (BuildsOne c) := by
  simp only [qualifiedName, after_bind, after_start, after_pure]
  refine After.imp ident_builds fun first c₁ hfirst => ?_
  refine (chain_buildsOne hfirst fun name c₂ hname => ?_).imp fun name c₂ hname => hname.inRole role
  simp only [qualifiedName.step, after_bind, after_atPunct, after_atIdent, after_ite, after_pure,
    after_bump, after_node]
  split
  · refine After.imp (ident_builds.and ident_isWord) fun last c₃ hlast => ?_
    exact .qualifiedName rfl hlast.2 (((hname.inRole .qualifier).before (.advance c₂)).cons hlast.1)
  · exact hname

end Parser

end Shorthand
