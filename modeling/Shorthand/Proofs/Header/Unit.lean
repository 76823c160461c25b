import Shorthand.Proofs.Header.Fork
import Shorthand.Proofs.Moved.Parse

/-!
Compilation units of two texts that part behind their imports.

The second text has one more import at the fork, and behind it what follows there in the first.

* `HeaderRead c ns ts c'`: the nodes are read from the tokens, and the last of the ones ends where the
  last of the others does.
* `imports_forked`: behind the imports of the first text the second has the new one.
* `compilationUnit_forked`: the unit of the second text is that of the first with the new import.
-/

namespace Shorthand

open Cursor

namespace Cursor

variable {src : List Char} {c c' : Cursor}

/-- A token that was taken ends behind the place where reading began. -/
lemma Fits.offset_le_lastEnd (h : c.Fits src) (hr : Reads c c') (ht : Takes c c') :
    ∃ stop, c'.lastEnd = some stop ∧ c.offset ≤ stop := by
  induction hr with
  | refl => exact absurd ht (Nat.lt_irrefl _)
  | @advance c' hr ih =>
    cases ha : c'.ahead with
    | nil =>
      rw [advance_of_end ha] at ht ⊢
      exact ih ht
    | cons t ts =>
      have hpeek : c'.peek 0 = t := by rw [peek, ha]; rfl
      have hle := Nat.le_trans (h.offset_le hr) (h.later hr).token_le.1
      rw [hpeek] at hle
      exact ⟨t.span.stop, by rw [advance_of_ahead ha], hle⟩
  | complain d hr ih => exact ih ht

end Cursor

namespace Parser

open Node

variable {src : List Char} {c c₁ c' : Cursor} {ns ms : List Node} {ts us : List Token} {f : Fork}

/-- Nodes that stand before the types of a text are read from tokens, with the last of which the last of
them ends. -/
structure HeaderRead (c : Cursor) (ns : List Node) (ts : List Token) (c' : Cursor) : Prop where
  took : Took c ts c'
  stops : ns.getLast?.map (·.span.stop) = ts.getLast?.map (·.span.stop)

namespace HeaderRead

lemma refl (c : Cursor) : HeaderRead c [] [] c := ⟨.refl c, rfl⟩

lemma trans (h : HeaderRead c ns ts c₁) (h' : HeaderRead c₁ ms us c') :
    HeaderRead c (ns ++ ms) (ts ++ us) c' := by
  refine ⟨h.took.trans h'.took, ?_⟩
  have hstops := h.stops
  have hstops' := h'.stops
  rw [List.getLast?_append, List.getLast?_append]
  cases hms : ms.getLast? <;> cases hus : us.getLast? <;> simp_all

/-- A node that reaches as far as what was taken. -/
lemma one {n : Node} (hfits : c.Fits src) (h : Took c ts c') (ht : Takes c c')
    (hspan : n.span = c'.spanSince c.offset) : HeaderRead c [n] ts c' := by
  obtain ⟨stop, hlast, hle⟩ := hfits.offset_le_lastEnd h.reads ht
  have hstop : n.span.stop = stop := by
    rw [hspan, spanSince, backOffset, hlast]
    exact Nat.max_eq_left hle
  refine ⟨h, ?_⟩
  have hne : ts ≠ [] := by
    rintro rfl
    rw [Takes, h.ahead] at ht
    exact Nat.lt_irrefl _ ht
  obtain ⟨t, hts⟩ := Option.ne_none_iff_exists'.mp fun hnil => hne (List.getLast?_eq_none_iff.mp hnil)
  have hlastEnd := h.lastEnd
  rw [hlast, hts] at hlastEnd
  rw [hts, List.getLast?_singleton, Option.map_some, Option.map_some, hstop]
  exact hlastEnd

end HeaderRead

/-! ### Packages -/

lemma packageDeclaration_span :
    packageDeclaration.After c fun n c' => n.span = c'.spanSince c.offset := by
  simp only [packageDeclaration, after_bind, after_start, after_bump, after_node, after_pure]
  rfl

lemma importDeclaration_span :
    importDeclaration.After c fun n c' => n.span = c'.spanSince c.offset := by
  simp only [importDeclaration, after_bind, after_start, after_bump, after_node, after_pure]
  refine After.imp (Q := fun _ _ => True) trivial fun modifiers c₁ _ => ?_
  refine After.imp (Q := fun _ _ => True) trivial fun name c₂ _ => ?_
  refine After.imp (Q := fun _ _ => True) trivial fun onDemand c₃ _ => ?_
  refine After.imp (Q := fun _ _ => True) trivial fun _ c₄ _ => ?_
  cases onDemand <;> rfl

lemma after_importRound {xs : List Node} {Q : List Node × Bool → Cursor → Prop} :
    (manyUntil.round notAtImport (some <$> importDeclaration) xs).After c Q ↔
      if c.kindAt 0 = .keyword .importKw then
        importDeclaration.After c fun n c' => Q (xs ++ [n], true) c'
      else Q (xs, false) c := by
  simp only [manyUntil.round, after_bind, after_notAtImport, after_ite, after_pure, after_map,
    Option.toList_some]
  by_cases hk : c.kindAt 0 = .keyword .importKw <;> simp [hk]

/-- At the fork an import is read, which leaves what follows there in the first text. -/
def Adds (f : Fork) (new : Node) : Prop :=
  ∀ d : Cursor, d.ahead = f.right → importDeclaration.After d fun n d' =>
    Same new n ∧ d'.ahead = f.left.map (.later f.offset)

/-- What is known of an import where one comes next. -/
lemma importDeclaration_forked (hfits : c.Fits src) (hk : c.kindAt 0 = .keyword .importKw) :
    importDeclaration.After c fun n c' => Takes c c' ∧ (∃ ts, HeaderRead c [n] ts c') ∧
      ∀ f d, Joint f c d → f.left.length ≤ c'.ahead.length →
        importDeclaration.After d fun m d' => Same n m ∧ Joint f c' d' ∧ Reads d d' := by
  have hplaced := importDeclaration_placed (c := c) (by simp [hk])
  refine And.intro hplaced.2.1 ⟨?_, fun f d hjoint hle => ?_⟩
  · obtain ⟨ts, htook⟩ := (importDeclaration_shares (f := default) hk).1
    exact ⟨ts, .one hfits htook hplaced.2.1 importDeclaration_span⟩
  · have hkind : d.kindAt 0 = .keyword .importKw := by
      rw [hjoint.kindAt_eq (n := 0) (Nat.lt_of_le_of_lt hle hplaced.2.1), hk]
    have hplaced' := importDeclaration_placed (c := d) (by simp [hkind])
    refine After.imp (((importDeclaration_shares hk).2 d hjoint hle).and hplaced')
      fun m d' ⟨⟨hnm, hd'⟩, hplaced'⟩ => ⟨hnm, hd', hplaced'.1.reads⟩

/-- Behind the imports of the first text the second has the new one, and nothing more. -/
theorem imports_forked {xs : List Node} (hfits : c.Fits src) :
    (iterate (manyUntil.round notAtImport (some <$> importDeclaration)) xs).After c fun ns c' =>
      ∃ read ts, ns = xs ++ read ∧ HeaderRead c read ts c' ∧ ∀ f d ys new,
        Joint f c d → f.left = c'.ahead → SameAll xs ys → Adds f new →
        (iterate (manyUntil.round notAtImport (some <$> importDeclaration)) ys).After d fun ms d' =>
          SameAll (ns ++ [new]) ms ∧ Reads d d' ∧ d'.ahead = f.left.map (.later f.offset) := by
  induction hn : c.ahead.length using Nat.strongRecOn generalizing c xs with
  | ind n ih =>
    refine After.iterate (after_importRound.mpr ?_)
    split
    · next hk =>
      refine After.imp (importDeclaration_forked hfits hk)
        fun m c' ⟨htakes, ⟨ts, hm⟩, hforks⟩ => ⟨htakes, ?_⟩
      have hrest := @ih _ (hn ▸ htakes) c' (xs ++ [m]) (hfits.later hm.took.reads) rfl
      refine hrest.imp fun ns c'' ⟨read, us, hns, hread, hrest⟩ => ?_
      refine ⟨m :: read, ts ++ us, by simpa using hns, hm.trans hread, ?_⟩
      intro f d ys new hjoint hleft hxs hnew
      have hle : f.left.length ≤ c'.ahead.length := hleft ▸ hread.took.reads.le
      have hkind := hjoint.kindAt_eq (n := 0) (Nat.lt_of_le_of_lt hle htakes)
      refine After.iterate (after_importRound.mpr ?_)
      rw [hkind, if_pos hk]
      refine After.imp (hforks f d hjoint hle) fun m' d' ⟨hm', hd', hreads⟩ => ⟨?_, ?_⟩
      · have := hjoint.length_eq
        have := hd'.length_eq
        have : c'.ahead.length < c.ahead.length := htakes
        show d'.ahead.length < d.ahead.length
        omega
      · refine After.imp (hrest f d' _ new hd' hleft (hxs.append (.one hm')) hnew) fun ms d'' h => ?_
        exact ⟨h.1, hreads.trans h.2.1, h.2.2⟩
    · next hk =>
      refine ⟨[], [], (List.append_nil xs).symm, .refl c, fun f d ys new hjoint hleft hxs hnew => ?_⟩
      have hahead : d.ahead = f.right := by
        obtain ⟨ts, hc, hd⟩ := hjoint.ahead
        rw [hleft, List.self_eq_append_left] at hc
        rw [hd, hc, List.nil_append]
      have hkind : d.kindAt 0 = .keyword .importKw := hjoint.kindAt_fork (n := 0) (by rw [hleft]; rfl)
      have hplaced := importDeclaration_placed (c := d) (by simp [hkind])
      refine After.iterate (after_importRound.mpr ?_)
      rw [if_pos hkind]
      refine After.imp ((hnew d hahead).and hplaced) fun m d' ⟨⟨hm, hd'⟩, hplaced⟩ => ⟨hplaced.2.1, ?_⟩
      -- What follows the new import is what no import followed in the first text.
      have hkind' : d'.kindAt 0 = c.kindAt 0 := by
        rw [kindAt, kindAt, Cursor.peek, Cursor.peek, hd', hleft]
        cases c.ahead <;> rfl
      refine After.iterate (after_importRound.mpr ?_)
      rw [hkind', if_neg hk]
      exact ⟨hxs.append (.one hm), hplaced.1.reads, hd'⟩

/-! ### Units -/

lemma packageDeclaration_takes (hk : c.kindAt 0 ≠ .eof) :
    packageDeclaration.After c fun _ c' => Takes c c' := by
  simp only [packageDeclaration, after_bind, after_start, after_bump, after_node, after_pure]
  refine After.imp qualifiedName_placed fun name c₁ hname => ?_
  refine After.imp expect_reads fun _ c₂ hsemi => ?_
  exact Nat.lt_of_le_of_lt (Nat.le_trans hsemi.le hname.1.le) (takes_advance hk)

/-- The package is read alike in both texts. -/
lemma package_forked (hfits : c.Fits src) :
    (itemIf (atKeyword .packageKw) packageDeclaration).After c fun ns c' =>
      (∃ ts, HeaderRead c ns ts c') ∧ ns.length ≤ 1 ∧ ∀ f d, Joint f c d →
        f.left.length ≤ c'.ahead.length →
        (itemIf (atKeyword .packageKw) packageDeclaration).After d fun ms d' =>
          SameAll ns ms ∧ Joint f c' d' := by
  have hshares (f : Fork) : Shares f c SameAll (itemIf (atKeyword .packageKw) packageDeclaration)
      (itemIf (atKeyword .packageKw) packageDeclaration) :=
    itemIf_shares (by decide) packageDeclaration_shares
      fun hk => packageDeclaration_takes (by simp [hk])
  have hread : (itemIf (atKeyword .packageKw) packageDeclaration).After c fun ns c' =>
      (∃ ts, HeaderRead c ns ts c') ∧ ns.length ≤ 1 := by
    rw [after_itemIf, after_atKeyword]
    split
    · next hk =>
      rw [beq_iff_eq] at hk
      have htakes := packageDeclaration_takes (c := c) (by simp [hk])
      obtain ⟨ts, htook⟩ := (packageDeclaration_shares (f := default) hk).1
      refine And.intro ⟨ts, .one hfits htook htakes packageDeclaration_span⟩ (Nat.le_refl 1)
    · exact ⟨⟨[], .refl c⟩, Nat.zero_le 1⟩
  exact ⟨hread.1, hread.2, fun f => (hshares f).2⟩

/-- The unit of the second text is that of the first, with the new import behind its imports. -/
structure UnitForked (c : Cursor) (package imports types : List Node) (ts rest : List Token) :
    Prop where
  ahead : c.ahead = ts ++ rest
  header : ∀ t ∈ ts, t.kind.inHeader = true
  stops : (package ++ imports).getLast?.map (·.span.stop) = ts.getLast?.map (·.span.stop)
  single : package.length ≤ 1
  isPackage : ∀ p ∈ package, IsHeaderEntry .packageDeclaration .package p
  isImport : ∀ i ∈ imports, IsHeaderEntry .importDeclaration .importDecl i
  isType : ∀ t ∈ types, IsTopType t
  forked : ∀ f d m new, Joint f c d → f.left = rest → d.ahead.length ≤ m → Adds f new →
    (compilationUnit (rulesTo m)).After d fun tree _ =>
      Same ⟨.compilationUnit, .unplaced, .detached, none, package ++ imports ++ [new] ++ types⟩ tree

theorem compilationUnit_forked {n : Nat} (hfits : c.Fits src) (hn : c.ahead.length ≤ n) :
    (compilationUnit (rulesTo n)).After c fun tree c' => ∃ package imports types ts rest,
      tree = ⟨.compilationUnit, .unplaced, ⟨0, c'.textEnd⟩, none, package ++ imports ++ types⟩
        ∧ UnitForked c package imports types ts rest := by
  simp only [compilationUnit, after_bind, after_get, after_pure]
  refine After.imp (After.and (package_forked hfits) package_placed) fun package c₁ hread => ?_
  obtain ⟨⟨⟨ts, hpackage⟩, hsingle, hforks⟩, -, hpackage'⟩ := hread
  have hfits₁ := hfits.later hpackage.took.reads
  refine After.imp (After.and (imports_forked hfits₁) imports_placed) fun imports c₂ hread => ?_
  obtain ⟨⟨read, us, hread, himports, hforks'⟩, -, himports'⟩ := hread
  obtain rfl : imports = read := hread
  have hheader := hpackage.trans himports
  have hfits₂ := hfits₁.later himports.took.reads
  have hle₂ := Nat.le_trans hheader.took.reads.le hn
  have htypes := types_placed (rulesTo_good n) hle₂ hfits₂
  refine ⟨package, imports, _, _, c₂.ahead, rfl, hheader.took.ahead, hheader.took.header,
    hheader.stops, hsingle, hpackage', himports', htypes.2, ?_⟩
  intro f d m new hjoint hleft hm hnew
  simp only [compilationUnit, after_bind, after_get, after_pure]
  have hle : f.left.length ≤ c₁.ahead.length := hleft ▸ himports.took.reads.le
  refine After.imp (After.and (hforks f d hjoint hle) package_placed) fun package' d₁ hread => ?_
  obtain ⟨⟨hsame, hjoint₁⟩, hreads, -⟩ := hread
  refine After.imp (hforks' f d₁ [] new hjoint₁ hleft (.refl []) hnew) fun imports' d₂ hread => ?_
  obtain ⟨hsame', hreads', hahead⟩ := hread
  -- What follows is what followed in the first text, only later.
  have hmoved : c₂.Moved ⟨c₂.complaints, d₂.complaints, c₂.ahead.length⟩ d₂ := by
    refine ⟨?_, ⟨[], rfl, rfl⟩, Nat.le_refl _⟩
    rw [hahead, hleft, Token.marks_later]
  have hdeep : c₂.ahead.length ≤ m := by
    rw [← hmoved.length_eq]
    exact Nat.le_trans hreads'.le (Nat.le_trans hreads.reads.le hm)
  have hheader' : SameAll (package ++ imports ++ [new]) (package' ++ imports') := by
    rw [List.append_assoc]
    exact hsame.append hsame'
  have halike := types_alike hle₂ hdeep c₂ d₂ hmoved
  exact Same.mk (hheader'.append halike.1)

end Parser

end Shorthand
