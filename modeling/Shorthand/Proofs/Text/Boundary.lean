import Mathlib.Tactic.Common
import Shorthand.Text.Bytes

/-!
Boundaries of a text.

`splitAt?_eq_some` says that a text is cut at an offset into the two parts of which the first has so
many bytes. Boundaries and slices are read off it: `slice?_eq_some` says that a slice is the middle one
of three parts.
-/

namespace Shorthand.Text

variable {as bs cs : List Char} {offset : Nat}

lemma bytes_pos_of_ne_nil (h : cs ≠ []) : 0 < bytes cs := by
  cases cs with
  | nil => exact absurd rfl h
  | cons c cs =>
    have := c.utf8Size_pos
    rw [bytes_cons]
    omega

/-- A cut of a text is found at the offset of its first part. -/
lemma splitAt?_append (as bs : List Char) : splitAt? (bytes as) (as ++ bs) = some (as, bs) := by
  induction as with
  | nil => cases bs <;> rfl
  | cons a as ih =>
    have hpos := a.utf8Size_pos
    obtain ⟨n, hn⟩ : ∃ n, bytes (a :: as) = n + 1 := ⟨a.utf8Size + bytes as - 1, by
      rw [bytes_cons]
      omega⟩
    have hrest : n + 1 - a.utf8Size = bytes as := by
      rw [bytes_cons] at hn
      omega
    have hle : ¬ n + 1 < a.utf8Size := by
      rw [bytes_cons] at hn
      omega
    rw [hn, List.cons_append, splitAt?, if_neg hle, hrest, ih]
    rfl

/-- The parts of a cut make up the text, and the first has as many bytes as the offset says. -/
lemma eq_of_splitAt? (h : splitAt? offset cs = some (as, bs)) : as ++ bs = cs ∧ bytes as = offset := by
  induction cs generalizing offset as with
  | nil =>
    cases offset with
    | zero => simp_all [splitAt?]
    | succ n => simp [splitAt?] at h
  | cons c cs ih =>
    cases offset with
    | zero => simp_all [splitAt?]
    | succ n =>
      rw [splitAt?] at h
      split at h
      · cases h
      · next hle =>
        obtain ⟨⟨before, after⟩, hsplit, heq⟩ := Option.map_eq_some_iff.mp h
        obtain ⟨rfl, rfl⟩ := Prod.mk.inj heq
        obtain ⟨hcat, hbytes⟩ := ih hsplit
        refine ⟨by rw [List.cons_append, hcat], ?_⟩
        rw [bytes_cons, hbytes]
        omega

theorem splitAt?_eq_some : splitAt? offset cs = some (as, bs) ↔ as ++ bs = cs ∧ bytes as = offset := by
  constructor
  · exact eq_of_splitAt?
  · rintro ⟨rfl, rfl⟩
    exact splitAt?_append as bs

/-- A text is cut at an offset in one way only. -/
lemma append_inj_of_bytes {as' bs' : List Char} (h : as ++ bs = as' ++ bs')
    (hbytes : bytes as = bytes as') : as = as' ∧ bs = bs' := by
  have hcut : splitAt? (bytes as) (as ++ bs) = some (as, bs) := splitAt?_append as bs
  rw [h, hbytes, splitAt?_append] at hcut
  obtain ⟨has, hbs⟩ := Prod.mk.inj (Option.some.inj hcut)
  exact ⟨has.symm, hbs.symm⟩

/-- An offset is a boundary if the text can be cut there. -/
theorem isBoundary_iff : isBoundary offset cs = true ↔ ∃ as bs, as ++ bs = cs ∧ bytes as = offset := by
  rw [isBoundary, Option.isSome_iff_exists]
  constructor
  · rintro ⟨⟨as, bs⟩, h⟩
    exact ⟨as, bs, eq_of_splitAt? h⟩
  · rintro ⟨as, bs, h⟩
    exact ⟨(as, bs), splitAt?_eq_some.mpr h⟩

lemma isBoundary_zero (cs : List Char) : isBoundary 0 cs = true := by
  cases cs <;> rfl

lemma isBoundary_bytes (cs : List Char) : isBoundary (bytes cs) cs = true :=
  isBoundary_iff.mpr ⟨cs, [], List.append_nil cs, rfl⟩

lemma le_bytes_of_isBoundary (h : isBoundary offset cs = true) : offset ≤ bytes cs := by
  obtain ⟨as, bs, rfl, rfl⟩ := isBoundary_iff.mp h
  rw [bytes_append]
  omega

/-- Two boundaries cut a text into three parts. -/
theorem exists_parts {start stop : Nat} (hstart : isBoundary start cs = true)
    (hstop : isBoundary stop cs = true) (hle : start ≤ stop) :
    ∃ as bs ds, cs = as ++ bs ++ ds ∧ bytes as = start ∧ bytes as + bytes bs = stop := by
  obtain ⟨as, rest, hcut, rfl⟩ := isBoundary_iff.mp hstart
  obtain ⟨as', rest', hcut', rfl⟩ := isBoundary_iff.mp hstop
  rcases List.append_eq_append_iff.mp (hcut.trans hcut'.symm) with ⟨bs, rfl, rfl⟩ | ⟨bs, rfl, rfl⟩
  · exact ⟨as, bs, rest', hcut'.symm, rfl, (bytes_append as bs).symm⟩
  · rw [bytes_append] at hle ⊢
    have hnil : bs = [] := by
      by_contra hne
      have := bytes_pos_of_ne_nil hne
      omega
    subst hnil
    exact ⟨as', [], rest, by simpa using hcut.symm, by simp, by simp⟩

/-- The slice between two offsets is the part of the text that lies between them. -/
theorem slice?_eq_some {start stop : Nat} : slice? start stop cs = some bs ↔
    ∃ as ds, cs = as ++ bs ++ ds ∧ bytes as = start ∧ bytes as + bytes bs = stop := by
  constructor
  · intro h
    rw [slice?] at h
    split at h
    · next hle =>
      obtain ⟨⟨as, rest⟩, hfirst, h⟩ := Option.bind_eq_some_iff.mp h
      obtain ⟨⟨bs', ds⟩, hsecond, h⟩ := Option.bind_eq_some_iff.mp h
      obtain rfl : bs' = bs := Option.some.inj h
      obtain ⟨rfl, rfl⟩ := eq_of_splitAt? hfirst
      obtain ⟨rfl, hbytes⟩ := eq_of_splitAt? hsecond
      refine ⟨as, ds, by rw [List.append_assoc], rfl, ?_⟩
      omega
    · cases h
  · rintro ⟨as, ds, rfl, rfl, rfl⟩
    rw [slice?, if_pos (Nat.le_add_right _ _), List.append_assoc, splitAt?_append,
      Nat.add_sub_cancel_left]
    show (splitAt? (bytes bs) (bs ++ ds)).bind _ = _
    rw [splitAt?_append]
    rfl

/-- A boundary inside a slice cuts it in two. -/
lemma exists_slices {start mid stop : Nat} (h : slice? start stop cs = some bs)
    (hmid : isBoundary mid cs = true) (hstart : start ≤ mid) (hstop : mid ≤ stop) :
    ∃ front back, bs = front ++ back ∧ slice? start mid cs = some front
      ∧ slice? mid stop cs = some back := by
  obtain ⟨as, ds, hcut, rfl, rfl⟩ := slice?_eq_some.mp h
  have hfirst : isBoundary (bytes as) cs = true :=
    isBoundary_iff.mpr ⟨as, bs ++ ds, by rw [hcut, List.append_assoc], rfl⟩
  have hlast : isBoundary (bytes as + bytes bs) cs = true :=
    isBoundary_iff.mpr ⟨as ++ bs, ds, hcut.symm, bytes_append as bs⟩
  obtain ⟨as₁, front, rest, hfront, has, hmid₁⟩ := exists_parts hfirst hmid hstart
  obtain ⟨as₂, back, ds₂, hback, hmid₂, hstop₂⟩ := exists_parts hmid hlast hstop
  refine ⟨front, back, ?_, slice?_eq_some.mpr ⟨as₁, rest, hfront, has, hmid₁⟩,
    slice?_eq_some.mpr ⟨as₂, ds₂, hback, hmid₂, hstop₂⟩⟩
  obtain ⟨rfl, -⟩ : as₂ = as₁ ++ front ∧ back ++ ds₂ = rest :=
    append_inj_of_bytes (by rw [← List.append_assoc, ← hback, hfront])
      (by rw [hmid₂, bytes_append, hmid₁])
  have hwhole : as ++ bs = as₁ ++ front ++ back ∧ ds = ds₂ :=
    append_inj_of_bytes (by rw [← hcut, hback]) (by rw [bytes_append as, bytes_append, hstop₂])
  rw [List.append_assoc] at hwhole
  obtain ⟨rfl, -⟩ : as = as₁ ∧ bs = front ++ back := append_inj_of_bytes hwhole.1 has.symm
  exact List.append_cancel_left hwhole.1

end Shorthand.Text
