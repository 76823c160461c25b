import Shorthand.Caret.Expected
import Shorthand.Proofs.Model.Recorded
import Shorthand.Proofs.Reading.Nesting

/-!
The type that is expected of a result.

The method around an offset is found among the methods that were recorded for the types of the text. These
are the declarations that are members of a type which is itself a member, and so on up to the text. They
do not overlap, so the order in which types are searched and the lengths of the methods make no difference.

* `Index.typesAmong_disjoint`: at most one recorded declaration has an offset between its ends.
* `Index.enclosingMethod?_eq_some`: it is the one that is found.
* `Site.expectedTy?_result`: its result type is what is expected behind `return`, if it is a known type.

A method in the body of an anonymous or local class is not recorded. The example at the end shows that the
result type of the method around the class is expected in it.
-/

namespace Shorthand

variable {src : List Char} {offset lo hi : Nat}

/-- Of nodes that lie one behind the other at most one has an offset between its ends. -/
lemma Node.InOrder.eq_of_strictlyContains {ns : List Node} {c d : Node} (h : InOrder lo ns hi)
    (hc : c ∈ ns) (hd : d ∈ ns) (hcoffset : c.span.strictlyContains offset = true)
    (hdoffset : d.span.strictlyContains offset = true) : c = d := by
  induction ns generalizing lo with
  | nil => cases hc
  | cons n ns ih =>
    obtain ⟨-, -, hns⟩ := h
    -- What comes behind `n` starts where `n` ends or later.
    have hapart : ∀ k ∈ ns, k.span.strictlyContains offset = true →
        n.span.strictlyContains offset = true → False := by
      intro k hk hkoffset hnoffset
      have hstart := hns.start_le hk
      simp only [Span.strictlyContains, Bool.and_eq_true, decide_eq_true_eq] at hkoffset hnoffset
      omega
    rcases List.mem_cons.mp hc with rfl | hc'
    · rcases List.mem_cons.mp hd with rfl | hd'
      · rfl
      · exact (hapart d hd' hdoffset hcoffset).elim
    · rcases List.mem_cons.mp hd with rfl | hd'
      · exact (hapart c hc' hcoffset hdoffset).elim
      · exact ih hns hc' hd'

/-! ### Declarations around an offset -/

namespace SourceType

/-- A method or constructor that is a member of the type has an offset between its ends. -/
structure DeclaresAt (s : SourceType) (offset : Nat) (m : Node) : Prop where
  member : m ∈ s.declaration.children
  role : m.role = .member
  kind : m.kind = .methodDeclaration
  around : m.span.strictlyContains offset = true

lemma DeclaresAt.not_waits {s : SourceType} {m : Node} (h : s.DeclaresAt offset m) : ¬ m.Waits := by
  rintro ⟨hkind, -⟩
  cases h.kind.symm.trans hkind

/-- The declarations of methods around an offset that are members of some types are all the same. -/
def AtMostOneAt (offset : Nat) (ss : List SourceType) : Prop :=
  ∀ s ∈ ss, ∀ s' ∈ ss, ∀ m m', s.DeclaresAt offset m → s'.DeclaresAt offset m' → s = s' ∧ m = m'

end SourceType

namespace Node

/-- The node declares a type and has an offset between its ends. -/
structure IsTypeAround (offset : Nat) (n : Node) : Prop where
  kind : n.kind.isTypeDeclaration = true
  around : n.span.strictlyContains offset = true

lemma IsTypeAround.not_waits {n : Node} (h : n.IsTypeAround offset) : ¬ n.Waits := by
  rintro ⟨hkind, -⟩
  have hdeclares := h.kind
  rw [hkind] at hdeclares
  cases hdeclares

end Node

namespace Index

open SourceType

mutual

/-- The methods of a type and of those in it are around an offset only if the type is, and at most one of
them is. -/
lemma typesOf_disjoint (offset : Nat) (package : String) (outer : Option String) : ∀ n : Node, n.Laid src →
    (∀ s ∈ typesOf package outer n, ∀ m, s.DeclaresAt offset m →
        s.declaration.IsTypeAround offset ∧ n.IsTypeAround offset)
      ∧ AtMostOneAt offset (typesOf package outer n)
  | ⟨kind, role, span, text, children⟩, h => by
    rw [typesOf]
    split
    · next hdeclares =>
      rw [Bool.and_eq_true] at hdeclares
      split
      · next simple hname =>
        obtain ⟨hi, hin⟩ := h.own.children
        obtain ⟨hinside, hinner⟩ := typesAmong_disjoint offset package
          (some (inPackage (outer.getD package) simple)) children h.inner span.start hi hin
        -- A method of the type itself does not contain one of a type in it, which is a sibling.
        have hapart : ∀ s ∈ typesAmong package (some (inPackage (outer.getD package) simple)) children,
            ∀ m m', s.DeclaresAt offset m → m' ∈ children → m'.kind = .methodDeclaration →
              m'.span.strictlyContains offset = true → False := by
          intro s hs m m' hm hmem hkind hoffset
          obtain ⟨-, c, hc, haround⟩ := hinside s hs m hm
          obtain rfl := hin.eq_of_strictlyContains hc hmem haround.around hoffset
          have hcontra := haround.kind
          rw [hkind] at hcontra
          cases hcontra
        refine ⟨?_, ?_⟩
        · intro s hs m hm
          rcases List.mem_cons.mp hs with rfl | hs
          · have hself := Node.strictlyContains_of_mem h.own hm.member hm.not_waits hm.around
            exact ⟨⟨hdeclares.2, hself⟩, hdeclares.2, hself⟩
          · obtain ⟨haround, c, hc, hcaround⟩ := hinside s hs m hm
            exact ⟨haround, hdeclares.2,
              Node.strictlyContains_of_mem h.own hc hcaround.not_waits hcaround.around⟩
        · intro s hs s' hs' m m' hm hm'
          rcases List.mem_cons.mp hs with rfl | hs
          · rcases List.mem_cons.mp hs' with rfl | hs'
            · exact ⟨rfl, hin.eq_of_strictlyContains hm.member hm'.member hm.around hm'.around⟩
            · exact (hapart s' hs' m' m hm' hm.member hm.kind hm.around).elim
          · rcases List.mem_cons.mp hs' with rfl | hs'
            · exact (hapart s hs m m' hm hm'.member hm'.kind hm'.around).elim
            · exact hinner s hs s' hs' m m' hm hm'
      · exact ⟨nofun, nofun⟩
    · exact ⟨nofun, nofun⟩

lemma typesAmong_disjoint (offset : Nat) (package : String) (outer : Option String) : ∀ ns : List Node,
    (∀ n ∈ ns, n.Laid src) → ∀ lo hi, Node.InOrder lo ns hi →
    (∀ s ∈ typesAmong package outer ns, ∀ m, s.DeclaresAt offset m →
        s.declaration.IsTypeAround offset ∧ ∃ n ∈ ns, n.IsTypeAround offset)
      ∧ AtMostOneAt offset (typesAmong package outer ns)
  | [], _, _, _, _ => by simp [typesAmong, AtMostOneAt]
  | c :: cs, h, lo, hi, hin => by
    obtain ⟨hfirst, hfirstOne⟩ := typesOf_disjoint offset package outer c (h c List.mem_cons_self)
    obtain ⟨hrest, hrestOne⟩ := typesAmong_disjoint offset package outer cs
      (fun n hn => h n (List.mem_cons_of_mem _ hn)) c.span.stop hi hin.2.2
    have hapart : ∀ s ∈ typesOf package outer c, ∀ s' ∈ typesAmong package outer cs, ∀ m m',
        s.DeclaresAt offset m → s'.DeclaresAt offset m' → False := by
      intro s hs s' hs' m m' hm hm'
      have hc := (hfirst s hs m hm).2.around
      obtain ⟨-, d, hd, hdaround⟩ := hrest s' hs' m' hm'
      have hstart := hin.2.2.start_le hd
      have hdoffset := hdaround.around
      simp only [Span.strictlyContains, Bool.and_eq_true, decide_eq_true_eq] at hc hdoffset
      omega
    rw [typesAmong]
    refine ⟨?_, ?_⟩
    · intro s hs m hm
      rcases List.mem_append.mp hs with hs | hs
      · obtain ⟨haround, hcaround⟩ := hfirst s hs m hm
        exact ⟨haround, c, List.mem_cons_self, hcaround⟩
      · obtain ⟨haround, d, hd, hdaround⟩ := hrest s hs m hm
        exact ⟨haround, d, List.mem_cons_of_mem _ hd, hdaround⟩
    · intro s hs s' hs' m m' hm hm'
      rcases List.mem_append.mp hs with hs | hs
      · rcases List.mem_append.mp hs' with hs' | hs'
        · exact hfirstOne s hs s' hs' m m' hm hm'
        · exact (hapart s hs s' hs' m m' hm hm').elim
      · rcases List.mem_append.mp hs' with hs' | hs'
        · exact (hapart s' hs' s hs m' m hm' hm).elim
        · exact hrestOne s hs s' hs' m m' hm hm'

end

/-! ### The method around an offset -/

lemma shortest?_concat {α : Type} (xs : List (Span × α)) (x : Span × α) :
    shortest? (xs ++ [x]) = some x ∨ shortest? (xs ++ [x]) = shortest? xs ∧ xs ≠ [] := by
  rw [shortest?, List.foldl_append, ← shortest?, List.foldl_cons, List.foldl_nil]
  cases hxs : shortest? xs with
  | none => exact .inl rfl
  | some best =>
    rw [shortest?.shorter]
    split
    · exact .inl rfl
    · refine .inr ⟨rfl, ?_⟩
      rintro rfl
      cases hxs

lemma mem_of_shortest? {α : Type} {xs : List (Span × α)} {x : Span × α} (h : shortest? xs = some x) :
    x ∈ xs := by
  induction xs using List.reverseRecOn with
  | nil => cases h
  | append_singleton xs y ih =>
    rcases shortest?_concat xs y with hlast | ⟨hearlier, -⟩
    · obtain rfl := Option.some.inj (hlast.symm.trans h)
      exact List.mem_append_right _ (List.mem_singleton_self _)
    · exact List.mem_append_left _ (ih (hearlier.symm.trans h))

lemma isSome_shortest? {α : Type} {xs : List (Span × α)} {x : Span × α} (hx : x ∈ xs) :
    (shortest? xs).isSome = true := by
  induction xs using List.reverseRecOn generalizing x with
  | nil => cases hx
  | append_singleton xs y ih =>
    rcases shortest?_concat xs y with hlast | ⟨hearlier, hne⟩
    · rw [hlast]
      rfl
    · rw [hearlier]
      exact ih (List.head_mem hne)

/-- What is recorded of a type around an offset are its declarations there, if they have names. -/
lemma mem_callables_completed {ix : Index} {s : SourceType} {x : Span × MethodInfo} :
    x ∈ (ix.completed s).callables.filter (·.1.strictlyContains offset) ↔
      ∃ m, s.DeclaresAt offset m ∧ callableOf? ix s.info.name m = some x.2 ∧ m.span = x.1 := by
  obtain ⟨span, info⟩ := x
  rw [List.mem_filter, completed, List.mem_map]
  constructor
  · rintro ⟨⟨⟨m, callable⟩, hmem, heq⟩, hoffset⟩
    obtain ⟨rfl, rfl⟩ := Prod.mk.inj heq
    obtain ⟨n, hn, hcallable⟩ := List.mem_filterMap.mp hmem
    obtain ⟨hchild, hrole⟩ := List.mem_filter.mp hn
    split at hcallable
    · next hkind =>
      obtain ⟨info, hinfo, heq⟩ := Option.map_eq_some_iff.mp hcallable
      obtain ⟨rfl, rfl⟩ := Prod.mk.inj heq
      exact ⟨n, ⟨hchild, beq_iff_eq.mp hrole, hkind, hoffset⟩, hinfo, rfl⟩
    · cases hcallable
  · rintro ⟨m, hm, hcallable, rfl⟩
    refine ⟨⟨(m, info), List.mem_filterMap.mpr ⟨m, ?_, ?_⟩, rfl⟩, hm.around⟩
    · exact List.mem_filter.mpr ⟨hm.member, beq_iff_eq.mpr hm.role⟩
    · rw [if_pos hm.kind, hcallable]
      rfl

variable {ix : Index}

/-- What is found at an offset is declared around it. -/
lemma exists_of_enclosingMethod? (hix : ix.resolved = false) {info : MethodInfo}
    (h : ix.resolve.enclosingMethod? offset = some info) :
    ∃ s ∈ ix.entered.sources, ∃ m, s.DeclaresAt offset m
      ∧ callableOf? ix.entered s.info.name m = some info := by
  rw [enclosingMethod?, resolve_eq_filledBy hix,
    enclosingSources_filledBy (keepsNames_completed _)] at h
  obtain ⟨s', hs', h⟩ := List.exists_of_findSome?_eq_some h
  obtain ⟨s, hs, rfl⟩ := List.mem_map.mp hs'
  obtain ⟨x, hx, rfl⟩ := Option.map_eq_some_iff.mp h
  obtain ⟨m, hm, hcallable, -⟩ := mem_callables_completed.mp (mem_of_shortest? hx)
  rw [enclosingSources, List.mem_mergeSort, List.mem_filter] at hs
  exact ⟨s, hs.1, m, hm, hcallable⟩

/-- Something is found where a type and one of its methods with a name are around an offset. -/
lemma isSome_enclosingMethod? (hix : ix.resolved = false) {s : SourceType} {m : Node}
    {info : MethodInfo} (hs : s ∈ ix.entered.sources) (haround : s.declaration.IsTypeAround offset)
    (hm : s.DeclaresAt offset m) (hcallable : callableOf? ix.entered s.info.name m = some info) :
    (ix.resolve.enclosingMethod? offset).isSome = true := by
  rw [enclosingMethod?, resolve_eq_filledBy hix,
    enclosingSources_filledBy (keepsNames_completed _), List.findSome?_isSome_iff]
  refine ⟨ix.entered.completed s, List.mem_map_of_mem ?_, ?_⟩
  · rw [enclosingSources, List.mem_mergeSort, List.mem_filter]
    exact ⟨hs, haround.around⟩
  · have hmem : (m.span, info) ∈
        (ix.entered.completed s).callables.filter (·.1.strictlyContains offset) :=
      mem_callables_completed.mpr ⟨m, hm, hcallable, rfl⟩
    rw [Option.isSome_map]
    exact isSome_shortest? hmem

/-- The method that is found at an offset is the one that is declared around it as a member of a type that
is reached through members. -/
theorem enclosingMethod?_eq_some (hix : ix.resolved = false) (htree : ix.tree.Laid src)
    {info : MethodInfo} :
    ix.resolve.enclosingMethod? offset = some info ↔
      ∃ s ∈ ix.entered.sources, ∃ m, s.DeclaresAt offset m
        ∧ callableOf? ix.entered s.info.name m = some info := by
  refine ⟨exists_of_enclosingMethod? hix, ?_⟩
  rintro ⟨s, hs, m, hm, hcallable⟩
  obtain ⟨hi, hin⟩ := htree.own.children
  obtain ⟨haround, hone⟩ := typesAmong_disjoint offset (packageOf ix.tree) none ix.tree.children
    htree.inner _ hi hin
  obtain ⟨found, hfound⟩ := Option.isSome_iff_exists.mp
    (isSome_enclosingMethod? hix hs (haround s hs m hm).1 hm hcallable)
  obtain ⟨s', hs', m', hm', hcallable'⟩ := exists_of_enclosingMethod? hix hfound
  obtain ⟨rfl, rfl⟩ := hone s hs s' hs' m m' hm hm'
  rw [hfound, ← hcallable', hcallable]

end Index

/-! ### The type of a result -/

lemma knownTy?_eq_some {t u : Ty} : knownTy? t = some u ↔ t ≠ .unknown ∧ t = u := by
  rw [knownTy?]
  split
  · next h => simp [h]
  · next h => simp [h]

/-- What is expected of a value behind a return is the result type of the method that is declared around
the caret, unless there is no result or its type is not known. -/
theorem Site.expectedTy?_result (site : Site) (s : Surroundings) (source : String)
    (library : List TypeInfo) (hslot : site.slot = .expression)
    (hconstruct : site.construct = .returnStatement) (t : Ty) :
    let ix := Index.ofTree (parse source).tree library
    site.expectedTy? s ix.resolve = some t ↔ t ≠ .void ∧ t ≠ .unknown ∧
      ∃ owner ∈ ix.entered.sources, ∃ m info, owner.DeclaresAt s.caret m
        ∧ Index.callableOf? ix.entered owner.info.name m = some info ∧ info.ret = t := by
  have hlaid := parse_laid source
  generalize (parse source).tree = tree at *
  intro ix
  have hix : ix.resolved = false := rfl
  have htree : ix.tree.Laid source.toList := hlaid
  have hresult : site.expectedTy? s ix.resolve = resultTy? s ix.resolve := by
    rw [expectedTy?, hslot]
    simp only [expressionTy?, hconstruct]
  rw [hresult, resultTy?, Option.bind_eq_bind, Option.bind_eq_some_iff]
  constructor
  · rintro ⟨info, hinfo, ht⟩
    split at ht
    · cases ht
    · next hvoid =>
      obtain ⟨hknown, rfl⟩ := knownTy?_eq_some.mp ht
      obtain ⟨owner, howner, m, hm, hcallable⟩ := (Index.enclosingMethod?_eq_some hix htree).mp hinfo
      exact ⟨hvoid, hknown, owner, howner, m, info, hm, hcallable, rfl⟩
  · rintro ⟨hvoid, hknown, owner, howner, m, info, hm, hcallable, rfl⟩
    have hinfo := (Index.enclosingMethod?_eq_some hix htree).mpr ⟨owner, howner, m, hm, hcallable⟩
    refine ⟨info, hinfo, ?_⟩
    rw [if_neg hvoid]
    exact knownTy?_eq_some.mpr ⟨hknown, rfl⟩

/-- The caret is behind the return of `f`, and the method around it is `m`. -/
example :
    let ix := (Index.ofTree (parse "class A { boolean m() { new A() { int f() { return ; } }; } }").tree
      []).resolve
    (ix.enclosingMethod? 51).map (·.name) = some "m" := by
  decide +kernel

end Shorthand
