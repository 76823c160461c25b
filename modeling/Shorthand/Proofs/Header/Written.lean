import Shorthand.Insertion.Header
import Shorthand.Proofs.Header.Fork

/-!
Reading an import that is complete.

Before the tokens of an import of a dotted name (`importKinds`) an import is read, which takes just
these tokens and is the declaration that the library makes for the name.

* `Node.ofName_eq_ofWords`: a dotted name is its first word, made longer by the others one after the other.
* `importDeclaration_written`: the import is read.
-/

namespace Shorthand

open Cursor

/-- The kinds of the tokens of the further words of a name. -/
def furtherKinds (words : List String) : List TokenKind :=
  words.flatMap fun word => [.punct .dot, .ident word]

/-- The kinds of the tokens of an import, of which the name has the given words. -/
def importKinds (first : String) (words : List String) : List TokenKind :=
  .keyword .importKw :: .ident first :: (furtherKinds words ++ [.punct .semi])

/-! ### Names -/

namespace Node

/-- A name with one more word. -/
def longer (n : Node) (word : String) : Node :=
  (detached .qualifiedName).withChildren [n.inRole .qualifier, (ofWord word).inRole .name]

/-- A name of a first word and further ones. -/
def ofWords (first : String) (words : List String) : Node := words.foldl longer (ofWord first)

lemma ofSegments_eq_ofWords {last first : String} {before words : List String}
    (h : (last :: before).reverse = first :: words) :
    ofSegments last before = ofWords first words := by
  induction before generalizing last words with
  | nil =>
    obtain ⟨rfl, rfl⟩ := List.cons.inj h
    rfl
  | cons next before ih =>
    rw [List.reverse_cons] at h
    cases hfront : (next :: before).reverse with
    | nil => simp at hfront
    | cons first' words' =>
      rw [hfront, List.cons_append] at h
      obtain ⟨rfl, rfl⟩ := List.cons.inj h
      rw [ofWords, List.foldl_append, ← ofWords, ← ih hfront]
      rfl

/-- A dotted name is its first word, made longer by the others. -/
lemma ofName_eq_ofWords {name first : String} {words : List String}
    (h : Ty.segments name = first :: words) : ofName name = ofWords first words := by
  rw [ofName, h]
  cases hreverse : (first :: words).reverse with
  | nil => simp at hreverse
  | cons last before => exact ofSegments_eq_ofWords (by rw [← hreverse, List.reverse_reverse])

end Node

/-! ### Tokens -/

namespace Cursor

variable {c : Cursor} {k : TokenKind} {ks : List TokenKind}

/-- The kinds of the tokens ahead. -/
def kinds (c : Cursor) : List TokenKind := c.ahead.map (·.kind)

lemma kindAt_of_kinds (c : Cursor) (n : Nat) : c.kindAt n = c.kinds[n]?.getD .eof := by
  rw [kindAt, peek, kinds, List.getElem?_map]
  cases c.ahead[n]? <;> rfl

lemma kinds_advance (h : c.kinds = k :: ks) : c.advance.kinds = ks := by
  rw [kinds, ahead_advance, List.map_tail]
  exact congrArg List.tail h

lemma kindAt_zero (h : c.kinds = k :: ks) : c.kindAt 0 = k := by
  rw [kindAt_of_kinds, h]
  rfl

lemma takes_of_kinds (h : c.kinds = k :: ks) : Takes c c.advance := by
  have hlength : c.ahead.length = ks.length + 1 := by simpa [kinds] using congrArg List.length h
  have hlength' : c.advance.ahead.length = ks.length := by
    simpa [kinds] using congrArg List.length (kinds_advance h)
  show c.advance.ahead.length < c.ahead.length
  omega

end Cursor

namespace Parser

open Node

variable {d : Cursor} {ks : List TokenKind}

lemma ident_written {word : String} {role : Role} (h : d.kinds = .ident word :: ks) :
    (ident role).After d fun n d' => Same ((ofWord word).inRole role) n ∧ d'.kinds = ks
      ∧ Takes d d' := by
  have hk := kindAt_zero h
  have hident : (d.kindAt 0).identName?.isSome = true := by rw [hk]; rfl
  rw [after_ident, if_pos hident, after_leaf, hk]
  exact ⟨.mk (.refl []), kinds_advance h, takes_of_kinds h⟩

/-- The further words of a name make it longer, one after the other. -/
lemma name_written {start : Nat} {words : List String} {n₀ n : Node}
    (hn : Same (n₀.inRole .name) (n.inRole .name))
    (h : d.kinds = furtherKinds words ++ .punct .semi :: ks) :
    (chain (qualifiedName.step start) n).After d fun m d' =>
      Same ((words.foldl longer n₀).inRole .name) (m.inRole .name) ∧ d'.kinds = .punct .semi :: ks := by
  induction words generalizing d n₀ n with
  | nil =>
    have hk := kindAt_zero (show d.kinds = .punct .semi :: ks from h)
    refine after_chain_stop ?_
    rw [after_nameStep, hk, if_neg (by simp), after_pure]
    exact ⟨rfl, hn, h⟩
  | cons word words ih =>
    have hdot : d.kinds = .punct .dot :: .ident word :: (furtherKinds words ++ .punct .semi :: ks) := h
    have hname := kinds_advance hdot
    have hk : d.kindAt 0 = .punct .dot := kindAt_zero hdot
    have hk' : d.kindAt 1 = .ident word := by
      rw [← kindAt_zero hname]
      exact (kindAt_advance (by simp [hk]) 0).symm
    have htest : (d.kindAt 0 == .punct .dot && (d.kindAt 1).identName?.isSome) = true := by
      rw [hk, hk']
      rfl
    refine after_chain_step ?_
    rw [after_nameStep, if_pos htest]
    simp only [after_bind, after_bump, after_node, after_pure]
    refine After.imp (ident_written hname) ?_
    rintro m d' ⟨hm, hd', htakes⟩
    refine ⟨_, rfl, Nat.lt_trans htakes (takes_of_kinds hdot), ?_⟩
    have hqualifier : Same (n₀.inRole .qualifier) (n.inRole .qualifier) := hn.inRole .qualifier
    have hlonger : Same ((n₀.longer word).inRole .name)
        (Node.inRole ⟨.qualifiedName, .unplaced, d'.spanSince start, none,
          [n.inRole .qualifier, m]⟩ .name) :=
      .mk (.cons hqualifier (.one hm))
    exact ih hlonger hd'

lemma qualifiedName_written {first : String} {words : List String} {name : String}
    (hname : Ty.segments name = first :: words)
    (h : d.kinds = .ident first :: (furtherKinds words ++ .punct .semi :: ks)) :
    (qualifiedName .name).After d fun n d' =>
      Same ((ofName name).inRole .name) n ∧ d'.kinds = .punct .semi :: ks := by
  simp only [qualifiedName, after_bind, after_start, after_pure]
  refine After.imp (ident_written h) ?_
  rintro n d₁ ⟨hn, hd₁, -⟩
  rw [ofName_eq_ofWords hname]
  have hword : Same ((ofWord first).inRole .name) (n.inRole .name) := hn.inRole .name
  exact name_written hword hd₁

/-- Before the tokens of an import its declaration is read. -/
theorem importDeclaration_written {first : String} {words : List String} {name : String}
    (hname : Ty.segments name = first :: words) (h : d.kinds = importKinds first words ++ ks) :
    importDeclaration.After d fun n d' => Same (importNode name) n ∧ d'.kinds = ks := by
  have hkinds : d.kinds = .keyword .importKw :: .ident first
      :: (furtherKinds words ++ .punct .semi :: ks) := by
    rw [h, importKinds, List.cons_append, List.cons_append, List.append_assoc]
    rfl
  have hname' := kinds_advance hkinds
  simp only [importDeclaration, after_bind, after_start, after_bump, after_itemIf, after_atKeyword,
    kindAt_zero hname']
  rw [if_neg (by simp)]
  refine After.imp (qualifiedName_written hname hname') fun n d₁ hread => ?_
  obtain ⟨hn, hd₁⟩ := hread
  have hk := kindAt_zero hd₁
  have hstar : ¬ (d₁.kindAt 0 == .punct .dot && d₁.kindAt 1 == .punct .star) = true := by
    rw [hk]
    simp
  simp only [eatDotStar, after_bind, after_atPunct, after_ite]
  rw [if_neg hstar]
  simp only [after_pure, after_expect, after_node, hk, reduceIte]
  exact ⟨.mk (.one hn), kinds_advance hd₁⟩

end Parser

end Shorthand
