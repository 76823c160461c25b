import Shorthand.Proofs.Edit.Apply

/-!
Carrying out any number of edits together.

The ranges of edits that are carried out together lie one behind the other. It is enough to look at
each of the ordered edits and the one before it (`fault?_eq_none_iff`), because `TextEdit.Before` goes
on from edit to edit. The edits are then the only ordered arrangement of themselves, and the new text
is `TextEdit.Woven` of the parts of the old one that no edit covers and of the new texts.

* `inOrder_before_iff` says that the ordered edits lie one behind the other if the edits lie apart.
* `apply_perm` says that the order in which edits are given makes no difference.
* `apply_transaction` says when edits are carried out and what the new text is.
-/

namespace Shorthand

namespace TextEdit

variable {a b c e : TextEdit} {es es' : List TextEdit} {source : List Char}

/-! ### Edits that lie apart -/

/-- The edit starts before another one and ends at or before its start. -/
def Before (a b : TextEdit) : Prop := a.span.start < b.span.start ∧ a.span.stop ≤ b.span.start

/-- One of the two edits is before the other. -/
def Apart (a b : TextEdit) : Prop := a.Before b ∨ b.Before a

/-- The edit replaces a range of the text: its ends are in order and within the text, and a character
starts at each of them or the text ends there. -/
structure Fits (source : List Char) (e : TextEdit) : Prop where
  le : e.span.start ≤ e.span.stop
  stop_le : e.span.stop ≤ Text.bytes source
  start : Text.isBoundary e.span.start source = true
  stop : Text.isBoundary e.span.stop source = true

lemma isWithin_iff_fits : e.isWithin source = true ↔ e.Fits source := by
  rw [isWithin, Bool.and_eq_true, Bool.and_eq_true, decide_eq_true_eq]
  constructor
  · rintro ⟨⟨hle, hstart⟩, hstop⟩
    exact ⟨hle, Text.le_bytes_of_isBoundary hstop, hstart, hstop⟩
  · intro h
    exact ⟨⟨h.le, h.start⟩, h.stop⟩

lemma Apart.symm (h : a.Apart b) : b.Apart a := Or.symm h

lemma Before.asymm (h : a.Before b) : ¬ b.Before a := by
  intro h'
  have := h.1
  have := h'.1
  omega

/-- Behind an edit that is in order, what does not start before its end and not at its start is behind
it. -/
lemma follows_iff (ha : a.span.start ≤ a.span.stop) : b.follows (some a.span) = true ↔ a.Before b := by
  rw [follows, Bool.and_eq_true, decide_eq_true_eq, bne_iff_ne, Before]
  omega

lemma Before.trans (h : a.Before b) (h' : b.Before c) : a.Before c := by
  obtain ⟨hstart, hstop⟩ := h
  obtain ⟨hstart', _⟩ := h'
  constructor
  · omega
  · omega

lemma fault?_cons_eq_none {earlier : Option Span} : fault? source earlier (e :: es) = none ↔
    e.Fits source ∧ e.follows earlier = true ∧ fault? source (some e.span) es = none := by
  rw [← isWithin_iff_fits, fault?]
  cases e.isWithin source with
  | false => simp
  | true =>
    cases e.follows earlier with
    | false => simp
    | true => simp

/-- Nothing is wrong with edits behind an earlier one if each of them is a range of the text and all lie
one behind the other. Each edit is compared only with the one before it. -/
lemma fault?_behind (he : e.span.start ≤ e.span.stop) :
    fault? source (some e.span) es = none
      ↔ (∀ a ∈ es, a.Fits source) ∧ (e :: es).Pairwise Before := by
  induction es generalizing e with
  | nil => simp [fault?]
  | cons a es ih =>
    rw [fault?_cons_eq_none, follows_iff he, List.forall_mem_cons, List.pairwise_cons]
    constructor
    · rintro ⟨hfits, hbefore, hrest⟩
      obtain ⟨hall, hpairs⟩ := (ih hfits.le).mp hrest
      refine ⟨⟨hfits, hall⟩, ?_, hpairs⟩
      intro b hb
      rcases List.mem_cons.mp hb with rfl | hb
      · exact hbefore
      · exact hbefore.trans ((List.pairwise_cons.mp hpairs).1 b hb)
    · rintro ⟨⟨hfits, hall⟩, hfirst, hpairs⟩
      exact ⟨hfits, hfirst a (List.mem_cons_self ..), (ih hfits.le).mpr ⟨hall, hpairs⟩⟩

theorem fault?_eq_none_iff :
    fault? source none es = none ↔ (∀ e ∈ es, e.Fits source) ∧ es.Pairwise Before := by
  cases es with
  | nil => simp [fault?]
  | cons e es =>
    have hfollows : e.follows none = true := rfl
    rw [fault?_cons_eq_none, List.forall_mem_cons]
    constructor
    · rintro ⟨hfits, _, hrest⟩
      obtain ⟨hall, hpairs⟩ := (fault?_behind hfits.le).mp hrest
      exact ⟨⟨hfits, hall⟩, hpairs⟩
    · rintro ⟨⟨hfits, hall⟩, hpairs⟩
      exact ⟨hfits, hfollows, (fault?_behind hfits.le).mpr ⟨hall, hpairs⟩⟩

/-! ### Ordered edits -/

lemma precedes_iff : a.precedes b = true ↔
    a.span.start < b.span.start ∨ a.span.start = b.span.start ∧ a.span.stop ≤ b.span.stop := by
  rw [precedes]
  rcases Nat.lt_trichotomy a.span.start b.span.start with h | h | h
  · simp [Nat.compare_eq_lt.mpr h, h]
  · rw [h, Nat.compare_eq_eq.mpr rfl]
    simp [Ordering.then, Nat.isLE_compare]
  · rw [Nat.compare_eq_gt.mpr h]
    simp only [Ordering.then, Ordering.isLE, Bool.false_eq_true, false_iff]
    omega

lemma inOrder_perm (es : List TextEdit) : (inOrder es).Perm es := List.mergeSort_perm es _

lemma inOrder_pairwise (es : List TextEdit) :
    (inOrder es).Pairwise fun a b => a.precedes b = true := by
  refine List.pairwise_mergeSort ?_ ?_ es
  · intro a b c hab hbc
    rw [precedes_iff] at hab hbc ⊢
    omega
  · intro a b
    rw [Bool.or_eq_true, precedes_iff, precedes_iff]
    omega

/-- The ordered edits lie one behind the other if the edits lie apart, whatever their order. -/
theorem inOrder_before_iff : (inOrder es).Pairwise Before ↔ es.Pairwise Apart := by
  rw [← (inOrder_perm es).pairwise_iff Apart.symm]
  constructor
  · intro h
    exact h.imp Or.inl
  · intro h
    refine List.Pairwise.imp₂ ?_ (inOrder_pairwise es) h
    rintro a b hprecedes (hbefore | hbefore)
    · exact hbefore
    · have hstart := hbefore.1
      rw [precedes_iff] at hprecedes
      omega

/-- Edits that lie one behind the other can be ordered in one way only. -/
lemma eq_of_before (h : es.Pairwise Before) (h' : es'.Pairwise Before) (hperm : es.Perm es') :
    es = es' :=
  hperm.eq_of_pairwise (fun _ _ _ _ hab hba => absurd hba hab.asymm) h h'

/-- The ranges of the ordered edits do not depend on the order in which the edits are given. -/
lemma inOrder_spans (hperm : es.Perm es') :
    (inOrder es).map (·.span) = (inOrder es').map (·.span) := by
  have hsorted (es : List TextEdit) : ((inOrder es).map (·.span)).Pairwise fun s t =>
      s.start < t.start ∨ s.start = t.start ∧ s.stop ≤ t.stop :=
    List.pairwise_map.mpr ((inOrder_pairwise es).imp fun h => precedes_iff.mp h)
  have hspans : ((inOrder es).map (·.span)).Perm ((inOrder es').map (·.span)) :=
    ((inOrder_perm es).trans (hperm.trans (inOrder_perm es').symm)).map _
  refine hspans.eq_of_pairwise ?_ (hsorted es) (hsorted es')
  rintro ⟨s, t⟩ ⟨s', t'⟩ _ _ h h'
  have hstart : s = s' := by
    dsimp only at h h'
    omega
  have hstop : t = t' := by
    dsimp only at h h'
    omega
  rw [hstart, hstop]

/-- What is wrong with edits is seen from their ranges. -/
lemma fault?_eq_of_spans {earlier : Option Span} (h : es.map (·.span) = es'.map (·.span)) :
    fault? source earlier es = fault? source earlier es' := by
  induction es generalizing earlier es' with
  | nil =>
    obtain rfl : es' = [] := List.map_eq_nil_iff.mp h.symm
    rfl
  | cons e es ih =>
    cases es' with
    | nil => cases h
    | cons e' es' =>
      obtain ⟨hspan, hspans⟩ : e.span = e'.span ∧ es.map (·.span) = es'.map (·.span) := List.cons.inj h
      have hwithin : e.isWithin source = e'.isWithin source := by rw [isWithin, isWithin, hspan]
      have hfollows : e.follows earlier = e'.follows earlier := by
        cases earlier with
        | none => rfl
        | some s => rw [follows, follows, hspan]
      rw [fault?, fault?, hwithin, hfollows, hspan, ih hspans]

/-! ### The new text -/

/-- A text is made of the parts of another one from an offset on that no edit covers and, where an edit
covers a part, of the new text for it. -/
inductive Woven (source : List Char) : Nat → List TextEdit → List Char → Prop
  | rest {pos : Nat} {gap : List Char} (hgap : Text.slice? pos (Text.bytes source) source = some gap) :
    Woven source pos [] gap
  | edit {pos : Nat} {e : TextEdit} {es : List TextEdit} {gap out : List Char}
    (hgap : Text.slice? pos e.span.start source = some gap) (hout : Woven source e.span.stop es out) :
    Woven source pos (e :: es) (gap ++ e.text.toList ++ out)

/-- Edits that lie one behind the other leave what is before them alone and weave the rest. -/
lemma applyAll_woven {before rest : List Char} (hsource : before ++ rest = source)
    (hfits : ∀ e ∈ es, e.Fits source) (hbefore : es.Pairwise Before)
    (hpos : ∀ e ∈ es, Text.bytes before ≤ e.span.start) :
    ∃ out, applyAll es source = before ++ out ∧ Woven source (Text.bytes before) es out := by
  induction es generalizing before rest with
  | nil =>
    refine ⟨rest, hsource.symm, .rest (Text.slice?_eq_some.mpr ⟨before, [], ?_, rfl, ?_⟩)⟩
    · rw [List.append_nil, hsource]
    · rw [← hsource, Text.bytes_append]
  | cons e es ih =>
    obtain ⟨he, hes⟩ := List.forall_mem_cons.mp hfits
    obtain ⟨hfirst, hlater⟩ := List.pairwise_cons.mp hbefore
    have hle : Text.bytes before ≤ e.span.start := hpos e (List.mem_cons_self ..)
    -- The text up to the edit is what is before it and a gap.
    have hboundary : Text.isBoundary (Text.bytes before) source = true :=
      Text.isBoundary_iff.mpr ⟨before, rest, hsource, rfl⟩
    obtain ⟨before', gap, tail, hcut, hbytes, hstart⟩ := Text.exists_parts hboundary he.start hle
    obtain ⟨front, middle, after, hcut', hfront, hstop⟩ := isWithin_iff.mp (isWithin_iff_fits.mpr he)
    obtain ⟨rfl, _⟩ := Text.append_inj_of_bytes (hsource.trans (hcut.trans (List.append_assoc ..)))
      hbytes.symm
    obtain ⟨rfl, _⟩ : front = before ++ gap ∧ middle ++ after = tail := by
      refine Text.append_inj_of_bytes ?_ ?_
      · rw [← hcut, hcut', List.append_assoc]
      · rw [Text.bytes_append, hfront, hstart]
    have hend : Text.bytes (before ++ gap ++ middle) = e.span.stop := by
      rw [Text.bytes_append, hstop]
    -- The later edits leave all this alone, so the edit still finds its range.
    obtain ⟨out, hout, hwoven⟩ := ih hcut'.symm hes hlater fun a ha => by
      rw [hend]
      exact (hfirst a ha).2
    refine ⟨gap ++ e.text.toList ++ out, ?_, .edit ?_ (hend ▸ hwoven)⟩
    · calc applyAll (e :: es) source
          = e.apply (applyAll es source) := rfl
        _ = e.apply (before ++ gap ++ middle ++ out) := by rw [hout]
        _ = before ++ gap ++ e.text.toList ++ out := apply_of_parts hfront hstop
        _ = before ++ (gap ++ e.text.toList ++ out) := by simp
    · exact Text.slice?_eq_some.mpr ⟨before, tail, hcut, rfl, hstart⟩

end TextEdit

namespace Document

open TextEdit

variable {d d' : Document} {edits edits' : List TextEdit}

lemma apply_eq_ok_iff : d.apply edits = .ok d' ↔
    Text.isBoundary d.cursor d.text.toList = true
      ∧ fault? d.text.toList none (inOrder edits) = none ∧ d' = d.edited (inOrder edits) := by
  rw [apply]
  cases Text.isBoundary d.cursor d.text.toList with
  | false => simp
  | true =>
    cases fault? d.text.toList none (inOrder edits) with
    | none => simp [eq_comm]
    | some fault => simp

/-- The order in which edits are given makes no difference: they are carried out with the same document,
or refused for the same reason. -/
theorem apply_perm (h : edits.Perm edits') : d.apply edits = d.apply edits' := by
  have hfault : fault? d.text.toList none (inOrder edits) = fault? d.text.toList none (inOrder edits') :=
    fault?_eq_of_spans (inOrder_spans h)
  rw [apply, apply, hfault]
  cases hnone : fault? d.text.toList none (inOrder edits') with
  | some fault => rfl
  | none =>
    have hperm : (inOrder edits).Perm (inOrder edits') :=
      (inOrder_perm edits).trans (h.trans (inOrder_perm edits').symm)
    have heq : inOrder edits = inOrder edits' :=
      eq_of_before (fault?_eq_none_iff.mp (hfault.trans hnone)).2 (fault?_eq_none_iff.mp hnone).2 hperm
    rw [heq]

/-- Edits are carried out just if the cursor stands at a boundary of the text, every edit replaces a
range of it and all lie apart. The new text is woven of what the edits leave and of their texts, in the
order of their ranges. In whatever order the edits are given, the outcome is the same. -/
theorem apply_transaction (d : Document) (edits : List TextEdit) :
    ((∃ d', d.apply edits = .ok d') ↔ Text.isBoundary d.cursor d.text.toList = true
        ∧ (∀ e ∈ edits, e.Fits d.text.toList) ∧ edits.Pairwise Apart)
      ∧ (∀ d', d.apply edits = .ok d' → ∃ ordered, ordered.Perm edits ∧ ordered.Pairwise Before
        ∧ Woven d.text.toList 0 ordered d'.text.toList)
      ∧ ∀ edits', edits'.Perm edits → d.apply edits' = d.apply edits := by
  have hmem (e : TextEdit) : e ∈ inOrder edits ↔ e ∈ edits := (inOrder_perm edits).mem_iff
  refine ⟨⟨?_, ?_⟩, ?_, fun edits' h => apply_perm h⟩
  · rintro ⟨d', h⟩
    obtain ⟨hcursor, hfault, _⟩ := apply_eq_ok_iff.mp h
    obtain ⟨hfits, hbefore⟩ := fault?_eq_none_iff.mp hfault
    exact ⟨hcursor, fun e he => hfits e ((hmem e).mpr he), inOrder_before_iff.mp hbefore⟩
  · rintro ⟨hcursor, hfits, hapart⟩
    have hfault : fault? d.text.toList none (inOrder edits) = none :=
      fault?_eq_none_iff.mpr ⟨fun e he => hfits e ((hmem e).mp he), inOrder_before_iff.mpr hapart⟩
    exact ⟨_, apply_eq_ok_iff.mpr ⟨hcursor, hfault, rfl⟩⟩
  · intro d' h
    obtain ⟨_, hfault, rfl⟩ := apply_eq_ok_iff.mp h
    obtain ⟨hfits, hbefore⟩ := fault?_eq_none_iff.mp hfault
    obtain ⟨out, hout, hwoven⟩ := applyAll_woven (List.nil_append _) hfits hbefore
      fun e _ => Nat.zero_le _
    refine ⟨inOrder edits, inOrder_perm edits, hbefore, ?_⟩
    rw [edited, String.toList_ofList, hout]
    exact hwoven

/-- Two edits of a text with a wide character, the later one given first and touching the other. -/
theorem apply_transaction_touching :
    ∃ d', Document.apply ⟨"aéb", 4⟩ [⟨⟨3, 4⟩, "c"⟩, ⟨⟨1, 3⟩, "xy"⟩] = .ok d'
      ∧ (∃ ordered, ordered.Perm [⟨⟨3, 4⟩, "c"⟩, ⟨⟨1, 3⟩, "xy"⟩] ∧ ordered.Pairwise Before
        ∧ Woven "aéb".toList 0 ordered d'.text.toList)
      ∧ Document.apply ⟨"aéb", 4⟩ [⟨⟨1, 3⟩, "xy"⟩, ⟨⟨3, 4⟩, "c"⟩] = .ok d' := by
  obtain ⟨hiff, hwoven, hperm⟩ := apply_transaction ⟨"aéb", 4⟩ [⟨⟨3, 4⟩, "c"⟩, ⟨⟨1, 3⟩, "xy"⟩]
  have hfits : ∀ e ∈ ([⟨⟨3, 4⟩, "c"⟩, ⟨⟨1, 3⟩, "xy"⟩] : List TextEdit), e.Fits "aéb".toList := by
    intro e he
    rw [← isWithin_iff_fits]
    revert e
    decide
  have hapart : ([⟨⟨3, 4⟩, "c"⟩, ⟨⟨1, 3⟩, "xy"⟩] : List TextEdit).Pairwise Apart :=
    List.pairwise_pair.mpr (.inr ⟨by decide, by decide⟩)
  obtain ⟨d', h⟩ := hiff.mpr ⟨by decide, hfits, hapart⟩
  exact ⟨d', h, hwoven d' h, (hperm _ (List.Perm.swap ..)).trans h⟩

end Document

end Shorthand
