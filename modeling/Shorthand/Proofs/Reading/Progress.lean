import Shorthand.Proofs.Reading.After

/-!
Reading goes forward, and loops end.

`Reads c c'` says that reading leads from the cursor `c` to `c'`: some tokens were taken and some
complaints were made, and nothing else has changed. In particular reading has not stalled on the way.

* `after_iterate` is the rule of loops: what each round preserves holds behind the loop, if a round that
  is not the last takes a token.
* `after_sepBy1`, `after_sepUntil`, `after_manyUntil` and `after_chain` say so of the loops of the
  grammar.
* `After.iterate` and `After.chain` go through a single round of a loop, `after_chain_stop` and
  `after_chain_step` through one of which it is known whether it is the last.
-/

namespace Shorthand

namespace Cursor

/-- Reading leads from one cursor to another: tokens are taken and complaints are made. -/
inductive Reads : Cursor → Cursor → Prop
  | refl (c : Cursor) : Reads c c
  | advance {c c' : Cursor} : Reads c c' → Reads c c'.advance
  | complain {c c' : Cursor} (d : Diagnostic) : Reads c c' → Reads c (c'.complain d)

/-- At least one token was taken between two cursors. -/
abbrev Takes (c c' : Cursor) : Prop := c'.ahead.length < c.ahead.length

variable {c c' c'' : Cursor}

lemma advance_of_ahead {t : Token} {ts : List Token} (h : c.ahead = t :: ts) :
    c.advance = { c with ahead := ts, lastEnd := some t.span.stop } := by
  rw [Cursor.advance, h]

lemma advance_of_end (h : c.ahead = []) : c.advance = c := by rw [Cursor.advance, h]

lemma ahead_advance : c.advance.ahead = c.ahead.tail := by
  cases h : c.ahead with
  | nil => rw [advance_of_end h, h, List.tail_nil]
  | cons t ts => rw [advance_of_ahead h, List.tail_cons]

/-- Where a token comes next, taking it leaves fewer ahead. -/
lemma takes_advance (h : c.kindAt 0 ≠ .eof) : Takes c c.advance := by
  cases ha : c.ahead with
  | nil => simp [kindAt, peek, ha, Token.eofAt] at h
  | cons t ts => simp [ahead_advance, ha]

lemma stalled_advance : c.advance.stalled = c.stalled := by
  unfold Cursor.advance
  split <;> rfl

lemma textEnd_advance : c.advance.textEnd = c.textEnd := by
  unfold Cursor.advance
  split <;> rfl

lemma problems_advance : c.advance.problems = c.problems := by
  unfold Cursor.advance
  split <;> rfl

/-- If complaints were only added since, going back leaves those of the earlier cursor. -/
lemma backTo_of_problems {new : List Diagnostic} (h : c'.problems = new ++ c.problems) :
    c'.backTo c = { c with stalled := c'.stalled } := by
  rw [backTo, h, List.length_append, Nat.add_sub_cancel, List.drop_left]

/-- A token that comes next is the first one ahead. -/
lemma ahead_eq_cons (hk : c.kindAt 0 ≠ .eof) : c.ahead = c.peek 0 :: c.advance.ahead := by
  cases ha : c.ahead with
  | nil => exact absurd (by rw [kindAt, peek, ha]; rfl) hk
  | cons t ts => rw [ahead_advance, peek, ha]; rfl

/-- Behind the next token the ones behind it come. -/
lemma kindAt_advance (hk : c.kindAt 0 ≠ .eof) (n : Nat) : c.advance.kindAt n = c.kindAt (n + 1) := by
  cases ha : c.ahead with
  | nil => exact absurd (by rw [kindAt, peek, ha]; rfl) hk
  | cons t ts =>
    rw [kindAt, kindAt, peek, peek, ahead_advance, textEnd_advance, ha]
    rfl

namespace Reads

lemma one (c : Cursor) : Reads c c.advance := .advance (.refl c)

lemma complained (c : Cursor) (d : Diagnostic) : Reads c (c.complain d) := .complain d (.refl c)

lemma trans (h : Reads c c') (h' : Reads c' c'') : Reads c c'' := by
  induction h' with
  | refl => exact h
  | advance _ ih => exact .advance ih
  | complain d _ ih => exact .complain d ih

/-- What lies ahead is what is left of what lay ahead. -/
lemma suffix (h : Reads c c') : c'.ahead <:+ c.ahead := by
  induction h with
  | refl => exact List.suffix_rfl
  | advance _ ih => rw [ahead_advance]; exact (List.tail_suffix _).trans ih
  | complain _ _ ih => exact ih

lemma le (h : Reads c c') : c'.ahead.length ≤ c.ahead.length := h.suffix.length_le

/-- Reading does not stall. -/
lemma stalled_eq (h : Reads c c') : c'.stalled = c.stalled := by
  induction h with
  | refl => rfl
  | advance _ ih => rw [stalled_advance, ih]
  | complain _ _ ih => exact ih

/-- Complaints are only added. -/
lemma problems (h : Reads c c') : ∃ new, c'.problems = new ++ c.problems := by
  induction h with
  | refl => exact ⟨[], rfl⟩
  | advance _ ih => rwa [problems_advance]
  | complain d _ ih =>
    obtain ⟨new, hnew⟩ := ih
    exact ⟨d :: new, congrArg (d :: ·) hnew⟩

/-- Going back undoes all that reading did. -/
lemma backTo_eq (h : Reads c c') : c'.backTo c = c := by
  obtain ⟨new, hnew⟩ := h.problems
  rw [backTo_of_problems hnew, h.stalled_eq]

end Reads

end Cursor

namespace Parser

open Cursor

variable {α : Type} {c : Cursor}

/-! ### Steps that read -/

lemma expect_reads {p : Punct} : (expect p).After c fun _ c' => Reads c c' := by
  rw [after_expect]
  split
  · exact .one c
  · exact .complained c _

lemma expectAs_reads {p : Punct} {what : String} :
    (expectAs p what).After c fun _ c' => Reads c c' := by
  rw [after_expectAs]
  split
  · exact .one c
  · exact .complained c _

lemma eat_reads {p : Punct} : (eat p).After c fun _ c' => Reads c c' := by
  rw [after_eat]
  split
  · exact .one c
  · exact .refl c

lemma eatKeyword_reads {k : Keyword} : (eatKeyword k).After c fun _ c' => Reads c c' := by
  rw [after_eatKeyword]
  split
  · exact .one c
  · exact .refl c

lemma bumpAll_reads (n : Nat) : (bumpAll n).After c fun _ c' => Reads c c' := by
  induction n generalizing c with
  | zero => exact .refl c
  | succ n ih => exact ih.imp fun _ _ h => (Reads.one c).trans h

/-- The first of several tokens is taken if one is there. -/
lemma bumpAll_takes {n : Nat} (hn : n ≠ 0) (hc : c.kindAt 0 ≠ .eof) :
    (bumpAll n).After c fun _ c' => Takes c c' := by
  cases n with
  | zero => exact absurd rfl hn
  | succ n => exact (bumpAll_reads n).imp fun _ _ h => Nat.lt_of_le_of_lt h.le (takes_advance hc)

/-! ### Loops -/

/-- A round that is not the last takes a token and preserves `I`; then what the last round leads to
holds behind the loop. -/
theorem after_iterate {round : α → Parser (α × Bool)} {I J : α → Cursor → Prop} {x : α} (h : I x c)
    (hround : ∀ x c, I x c → (round x).After c fun y c' =>
      (y.2 = true → I y.1 c' ∧ Takes c c') ∧ (y.2 = false → J y.1 c')) :
    (iterate round x).After c J := by
  suffices hgo : ∀ rounds x c, I x c → c.ahead.length < rounds →
      (iterate.go round rounds x).After c J from
    hgo _ x c h (Nat.lt_succ_self _)
  intro rounds
  induction rounds with
  | zero => exact fun _ _ _ hlt => absurd hlt (Nat.not_lt_zero _)
  | succ rounds ih =>
    intro x c hx hlt
    simp only [iterate.go, after_bind, after_remaining]
    refine (hround x c hx).imp fun y c' ⟨hmore, hlast⟩ => ?_
    rw [after_ite]
    split
    · next hyes =>
      obtain ⟨hy, htakes⟩ := hmore hyes
      exact (ih y.1 c' hy (by omega)).below htakes
    · next hno => exact hlast (Bool.eq_false_iff.mpr hno)

/-- How many rounds are allowed does not matter if they are more than the tokens ahead. -/
lemma iterate_go_eq {round : α → Parser (α × Bool)} {m n : Nat} {x : α} (hm : c.ahead.length < m)
    (hn : c.ahead.length < n) :
    (iterate.go round m x).run c = (iterate.go round n x).run c := by
  induction m generalizing c n x with
  | zero => exact absurd hm (Nat.not_lt_zero _)
  | succ m ih =>
    obtain ⟨n, rfl⟩ := Nat.exists_eq_add_of_le' (Nat.lt_of_le_of_lt (Nat.zero_le _) hn)
    obtain ⟨y, more, c', hround⟩ : ∃ y more c', (round x).run c = ((y, more), c') :=
      ⟨_, _, _, rfl⟩
    have hunfold (k : Nat) : (iterate.go round (k + 1) x).run c
        = (if more = true then below c.ahead.length y (iterate.go round k y) else pure y).run c' := by
      change (fun p : (α × Bool) × Cursor => (if p.1.2 = true then
        below c.ahead.length p.1.1 (iterate.go round k p.1.1) else pure p.1.1).run p.2)
          ((round x).run c) = _
      rw [hround]
    have hbelow (k : Nat) : (below c.ahead.length y (iterate.go round k y)).run c'
        = if c'.ahead.length < c.ahead.length then (iterate.go round k y).run c'
          else (do stall; return y : Parser α).run c' := by
      change (if c'.ahead.length < c.ahead.length then iterate.go round k y
        else (do stall; return y : Parser α)).run c' = _
      split <;> rfl
    rw [hunfold, hunfold]
    split
    · rw [hbelow, hbelow]
      split
      · exact ih (by omega) (by omega)
      · rfl
    · rfl

/-- A loop goes through a round and then on as a loop, or ends with the round. -/
lemma After.iterate {round : α → Parser (α × Bool)} {x : α} {Q : α → Cursor → Prop}
    (h : (round x).After c fun y c' =>
      if y.2 = true then Takes c c' ∧ (iterate round y.1).After c' Q else Q y.1 c') :
    (iterate round x).After c Q := by
  change (iterate.go round (c.ahead.length + 1) x).After c Q
  simp only [iterate.go, after_bind, after_remaining]
  refine h.imp fun y c' hy => ?_
  split at hy
  · next hmore =>
    obtain ⟨htakes, hrest⟩ := hy
    rw [hmore, if_pos rfl]
    refine After.below htakes ?_
    rw [After, iterate_go_eq (n := c'.ahead.length + 1) htakes (Nat.lt_succ_self _)]
    exact hrest
  · next hmore =>
    rw [Bool.not_eq_true] at hmore
    rw [hmore]
    exact hy

section Lists

variable {sep : Punct} {item : Parser α} {stop : Parser Bool} {s : Cursor → Bool}
  {I : List α → Cursor → Prop}

/-- Items with separators between them. -/
lemma after_sepBy1 (h : I [] c) (hsep : ∀ xs c, I xs c → I xs c.advance)
    (hitem : ∀ xs c, I xs c → item.After c fun x c' =>
      I (xs ++ [x]) c' ∧ c'.ahead.length ≤ c.ahead.length) :
    (sepBy1 sep item).After c I := by
  refine after_iterate h fun xs c hxs => ?_
  simp only [sepBy1.round, after_bind, after_eat, after_pure]
  refine (hitem xs c hxs).imp fun x c' ⟨hx, hle⟩ => ?_
  split
  · next hk =>
    have htakes : Takes c' c'.advance := takes_advance (by simp [hk])
    exact ⟨fun _ => ⟨hsep _ _ hx, Nat.lt_of_lt_of_le htakes hle⟩, nofun⟩
  · exact ⟨nofun, fun _ => hx⟩

/-- Items with separators between them, up to the end of a list. -/
lemma after_sepUntil (hstop : ∀ c R, stop.After c R ↔ R (s c) c) (h : I [] c)
    (hsep : ∀ xs c, I xs c → I xs c.advance)
    (hitem : ∀ xs c, s c = false → I xs c → item.After c fun x c' =>
      I (xs ++ [x]) c' ∧ c'.ahead.length ≤ c.ahead.length) :
    (sepUntil stop sep item).After c I := by
  refine after_iterate h fun xs c hxs => ?_
  simp only [sepUntil.round, after_bind, after_eat, after_ite, hstop, after_pure]
  split
  · exact ⟨nofun, fun _ => hxs⟩
  · next hs =>
    refine (hitem xs c (Bool.eq_false_iff.mpr hs) hxs).imp fun x c' ⟨hx, hle⟩ => ?_
    split
    · next hk =>
      have htakes : Takes c' c'.advance := takes_advance (by simp [hk])
      exact ⟨fun _ => ⟨hsep _ _ hx, Nat.lt_of_lt_of_le htakes hle⟩, nofun⟩
    · exact ⟨nofun, fun _ => hx⟩

/-- Items up to the end of a list, each of which takes a token. -/
lemma after_manyUntil {item : Parser (Option α)} (hstop : ∀ c R, stop.After c R ↔ R (s c) c)
    (h : I [] c)
    (hitem : ∀ xs c, s c = false → I xs c → item.After c fun x c' =>
      I (xs ++ x.toList) c' ∧ Takes c c') :
    (manyUntil stop item).After c I := by
  refine after_iterate h fun xs c hxs => ?_
  simp only [manyUntil.round, after_bind, after_ite, hstop, after_pure]
  split
  · exact ⟨nofun, fun _ => hxs⟩
  · next hs =>
    exact (hitem xs c (Bool.eq_false_iff.mpr hs) hxs).imp fun x c' hx => ⟨fun _ => hx, nofun⟩

end Lists

/-- A result that is extended as long as a step applies, where each step takes a token. -/
lemma after_chain {step : α → Parser (Option α)} {I J : α → Cursor → Prop} {x : α} (h : I x c)
    (hstep : ∀ x c, I x c → (step x).After c fun o c' =>
      (∀ y, o = some y → I y c' ∧ Takes c c')
        ∧ (o = none → J x c' ∧ c'.ahead.length ≤ c.ahead.length)) :
    (chain step x).After c fun y c' => J y c' ∧ c'.ahead.length ≤ c.ahead.length := by
  have hstart : I x c ∧ c.ahead.length ≤ c.ahead.length := ⟨h, Nat.le_refl _⟩
  refine after_iterate (I := fun y c' => I y c' ∧ c'.ahead.length ≤ c.ahead.length) hstart
    fun x c' ⟨hx, hle⟩ => ?_
  simp only [chain.round, after_bind]
  refine (hstep x c' hx).imp fun o c'' ⟨hsome, hnone⟩ => ?_
  cases o with
  | some y =>
    obtain ⟨hy, htakes⟩ := hsome y rfl
    exact ⟨fun _ => ⟨⟨hy, Nat.le_trans (Nat.le_of_lt htakes) hle⟩, htakes⟩, nofun⟩
  | none =>
    obtain ⟨hx', hle'⟩ := hnone rfl
    exact ⟨nofun, fun _ => ⟨hx', Nat.le_trans hle' hle⟩⟩

/-- A result is extended by a step and then further, or is final where no step applies. -/
lemma After.chain {step : α → Parser (Option α)} {x : α} {Q : α → Cursor → Prop}
    (h : (step x).After c fun o c' =>
      (∀ y, o = some y → Takes c c' ∧ (chain step y).After c' Q) ∧ (o = none → Q x c')) :
    (chain step x).After c Q := by
  refine After.iterate (After.bind h fun o c' ⟨hsome, hnone⟩ => ?_)
  cases o with
  | some y => exact hsome y rfl
  | none => exact hnone rfl

/-- A loop ends where its step makes nothing. -/
lemma after_chain_stop {step : α → Parser (Option α)} {x : α} {Q : α → Cursor → Prop}
    (h : (step x).After c fun o c' => o = none ∧ Q x c') : (chain step x).After c Q := by
  refine After.chain (h.imp ?_)
  rintro _ c' ⟨rfl, hQ⟩
  exact ⟨by simp, fun _ => hQ⟩

/-- A loop goes on with what its step makes. -/
lemma after_chain_step {step : α → Parser (Option α)} {x : α} {Q : α → Cursor → Prop}
    (h : (step x).After c fun o c' =>
      ∃ y, o = some y ∧ Takes c c' ∧ (chain step y).After c' Q) : (chain step x).After c Q := by
  refine After.chain (h.imp ?_)
  rintro _ c' ⟨y, rfl, htakes, hrest⟩
  refine ⟨fun y' hy => ?_, by simp⟩
  obtain rfl := Option.some.inj hy
  exact ⟨htakes, hrest⟩

end Parser

end Shorthand
