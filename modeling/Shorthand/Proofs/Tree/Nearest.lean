import Mathlib.Data.List.Nodup
import Shorthand.Proofs.Greatest
import Shorthand.Proofs.Tree.Paths

/-!
The missing part nearest to an offset.

A missing part is an outermost one if it does not lie in another one (`Node.Lacks`). `Node.paths` are the
paths to all nodes of a tree in the order of `Node.descendants`, each node before what is below it and its
children one after the other.

* `Node.mem_missingParts_iff` and `Node.sublist_missingParts`: just the outermost missing parts are listed,
  in the order of the paths.
* `Node.nearestMissing_isFirst`: in a tree in which nothing is missing no part is nearest to an offset; in
  all others the nearest part is the first, in the order of the paths, of the outermost missing parts that
  are closest to the offset.
* `Node.lacks_of_bare` and `Node.distance_nearestMissing_le` are about trees with nothing below missing
  parts, in which all missing parts are outermost.
-/

namespace Shorthand

namespace Node

variable {n m c : Node} {ns : List Node} {path : Path} {i start offset : Nat}

/-! ### The order of the nodes -/

mutual

/-- The paths to the node and to all below it, in the order of `descendants`. -/
def paths : Node → List Path
  | ⟨_, _, _, _, children⟩ => [] :: pathsFrom 0 children

/-- The paths to the children from index `i` on and to all below them. -/
def pathsFrom (i : Nat) : List Node → List Path
  | [] => []
  | c :: cs => (paths c).map (i :: ·) ++ pathsFrom (i + 1) cs

end

mutual

/-- The paths lead to the nodes of the tree, one after the other. -/
lemma map_descendant?_paths : ∀ n : Node, n.paths.map n.descendant? = n.descendants.map some
  | ⟨kind, role, span, text, children⟩ => by
    rw [paths, descendants, List.map_cons, List.map_cons,
      map_descendant?_pathsFrom children ⟨kind, role, span, text, children⟩ 0 rfl]
    rfl

lemma map_descendant?_pathsFrom : ∀ (ns : List Node) (n : Node) (i : Nat), n.children.drop i = ns →
    (pathsFrom i ns).map n.descendant? = (descendantsOfAll ns).map some
  | [], _, _, _ => rfl
  | c :: cs, n, i, h => by
    have hc : n.children[i]? = some c := by
      rw [← Nat.add_zero i, ← List.getElem?_drop, h]
      rfl
    have hcs : n.children.drop (i + 1) = cs := by
      rw [← List.tail_drop, h]
      rfl
    have hbelow : n.descendant? ∘ (i :: ·) = c.descendant? := by
      funext path
      rw [Function.comp_apply, descendant?_cons, hc, Option.bind_some]
    rw [pathsFrom, descendantsOfAll, List.map_append, List.map_append, List.map_map, hbelow,
      map_descendant?_paths c, map_descendant?_pathsFrom cs n (i + 1) hcs]

end

/-- A path to a child or below it starts with the index of the child. -/
lemma exists_of_mem_pathsFrom (h : path ∈ pathsFrom i ns) : ∃ j below, path = j :: below ∧ i ≤ j := by
  induction ns generalizing i with
  | nil => cases h
  | cons c cs ih =>
    rw [pathsFrom, List.mem_append] at h
    rcases h with h | h
    · obtain ⟨below, -, rfl⟩ := List.mem_map.mp h
      exact ⟨i, below, rfl, Nat.le_refl i⟩
    · obtain ⟨j, below, rfl, hj⟩ := ih h
      exact ⟨j, below, rfl, Nat.le_of_succ_le hj⟩

mutual

lemma nodup_paths : ∀ n : Node, n.paths.Nodup
  | ⟨_, _, _, _, children⟩ => by
    rw [paths, List.nodup_cons]
    refine ⟨fun h => ?_, nodup_pathsFrom 0 children⟩
    obtain ⟨_, _, hnil, -⟩ := exists_of_mem_pathsFrom h
    cases hnil

lemma nodup_pathsFrom (i : Nat) : ∀ ns : List Node, (pathsFrom i ns).Nodup
  | [] => List.nodup_nil
  | c :: cs => by
    rw [pathsFrom, List.nodup_append]
    refine ⟨(nodup_paths c).map List.cons_injective, nodup_pathsFrom (i + 1) cs, ?_⟩
    intro p hp q hq hpq
    obtain ⟨below, -, rfl⟩ := List.mem_map.mp hp
    obtain ⟨j, below', rfl, hj⟩ := exists_of_mem_pathsFrom hq
    obtain ⟨rfl, -⟩ := List.cons.inj hpq
    exact Nat.not_succ_le_self i hj

end

/-! ### Outermost missing parts -/

/-- A path leads to a missing part that does not lie in another missing part. -/
structure Lacks (n : Node) (path : Path) (m : Node) : Prop where
  part : n.descendant? path = some m
  missing : m.kind = .missing
  outermost : ∀ above k, above <+: path → above ≠ path → n.descendant? above = some k →
    k.kind ≠ .missing

lemma lacks_nil : n.Lacks [] m ↔ n = m ∧ n.kind = .missing := by
  constructor
  · intro h
    obtain rfl := Option.some.inj h.part
    exact ⟨rfl, h.missing⟩
  · rintro ⟨rfl, hkind⟩
    exact ⟨rfl, hkind, fun above _ hprefix hne => absurd (List.prefix_nil.mp hprefix) hne⟩

lemma lacks_cons : n.Lacks (i :: path) m ↔
    n.kind ≠ .missing ∧ ∃ c, n.children[i]? = some c ∧ c.Lacks path m := by
  constructor
  · intro h
    obtain ⟨c, hc, hm⟩ := Option.bind_eq_some_iff.mp h.part
    refine ⟨h.outermost [] n List.nil_prefix (List.cons_ne_nil i path).symm rfl, c, hc, hm, h.missing, ?_⟩
    intro above k hprefix hne hk
    refine h.outermost (i :: above) k (List.cons_prefix_cons.mpr ⟨rfl, hprefix⟩) (by simpa using hne) ?_
    rw [descendant?_cons, hc, Option.bind_some, hk]
  · rintro ⟨hpresent, c, hc, h⟩
    refine ⟨by rw [descendant?_cons, hc, Option.bind_some, h.part], h.missing, ?_⟩
    intro above k hprefix hne hk
    cases above with
    | nil =>
      obtain rfl := Option.some.inj hk
      exact hpresent
    | cons j above =>
      obtain ⟨rfl, hbelow⟩ := List.cons_prefix_cons.mp hprefix
      rw [descendant?_cons, hc, Option.bind_some] at hk
      exact h.outermost above k hbelow (by simpa using hne) hk

/-! ### The list of the missing parts -/

lemma mem_missingPartsFrom_iff {part : Path × Nat} : part ∈ missingPartsFrom i ns ↔
    ∃ j below c, part.1 = (i + j) :: below ∧ ns[j]? = some c ∧ (below, part.2) ∈ c.missingParts := by
  induction ns generalizing i with
  | nil => simp [missingPartsFrom]
  | cons c cs ih =>
    rw [missingPartsFrom, List.mem_append, ih]
    constructor
    · rintro (h | ⟨j, below, d, hpath, hd, h⟩)
      · obtain ⟨inner, hinner, rfl⟩ := List.mem_map.mp h
        exact ⟨0, inner.1, c, rfl, rfl, hinner⟩
      · exact ⟨j + 1, below, d, by rw [hpath, Nat.add_right_comm, Nat.add_assoc], hd, h⟩
    · rintro ⟨j, below, d, hpath, hd, h⟩
      cases j with
      | zero =>
        obtain rfl := Option.some.inj hd
        exact .inl (List.mem_map.mpr ⟨(below, part.2), h, Prod.ext hpath.symm rfl⟩)
      | succ j =>
        refine .inr ⟨j, below, d, ?_, hd, h⟩
        rw [hpath, Nat.add_right_comm, Nat.add_assoc]

/-- Just the outermost missing parts are listed, each with its offset. -/
lemma mem_missingParts_iff :
    (path, start) ∈ n.missingParts ↔ ∃ m, n.Lacks path m ∧ m.span.start = start := by
  induction path generalizing n with
  | nil =>
    obtain ⟨kind, role, span, text, children⟩ := n
    rw [missingParts]
    split
    · next hkind => simp [lacks_nil, hkind, eq_comm]
    · next hkind => simp [lacks_nil, hkind, mem_missingPartsFrom_iff]
  | cons i path ih =>
    obtain ⟨kind, role, span, text, children⟩ := n
    rw [missingParts]
    split
    · next hkind => simp [lacks_cons, hkind]
    · next hkind =>
      have hmem : (i :: path, start) ∈ missingPartsFrom 0 children
          ↔ ∃ c, children[i]? = some c ∧ (path, start) ∈ c.missingParts := by
        simp [mem_missingPartsFrom_iff]
      rw [hmem]
      constructor
      · rintro ⟨c, hc, h⟩
        obtain ⟨m, hm, hstart⟩ := ih.mp h
        exact ⟨m, lacks_cons.mpr ⟨hkind, c, hc, hm⟩, hstart⟩
      · rintro ⟨m, hm, hstart⟩
        obtain ⟨-, c, hc, hm⟩ := lacks_cons.mp hm
        exact ⟨c, hc, ih.mpr ⟨m, hm, hstart⟩⟩

mutual

/-- The missing parts are listed in the order of the paths. -/
lemma sublist_missingParts : ∀ n : Node, (n.missingParts.map (·.1)).Sublist n.paths
  | ⟨kind, _, _, _, children⟩ => by
    rw [missingParts, paths]
    split
    · exact (List.nil_sublist _).cons_cons []
    · exact (sublist_missingPartsFrom 0 children).cons []

lemma sublist_missingPartsFrom (i : Nat) : ∀ ns : List Node,
    ((missingPartsFrom i ns).map (·.1)).Sublist (pathsFrom i ns)
  | [] => List.nil_sublist _
  | c :: cs => by
    rw [missingPartsFrom, pathsFrom, List.map_append, List.map_map]
    refine List.Sublist.append ?_ (sublist_missingPartsFrom (i + 1) cs)
    have hc := (sublist_missingParts c).map (i :: ·)
    rwa [List.map_map] at hc

end

mutual

lemma missingParts_eq_nil_iff : ∀ n : Node, n.missingParts = [] ↔ n.containsMissing = false
  | ⟨kind, _, _, _, children⟩ => by
    rw [missingParts, containsMissing]
    split
    · next hkind => simp [hkind]
    · next hkind => simp [hkind, missingPartsFrom_eq_nil_iff 0 children]

lemma missingPartsFrom_eq_nil_iff (i : Nat) : ∀ ns : List Node,
    missingPartsFrom i ns = [] ↔ anyMissing ns = false
  | [] => by simp [missingPartsFrom, anyMissing]
  | c :: cs => by
    rw [missingPartsFrom, anyMissing, List.append_eq_nil_iff, List.map_eq_nil_iff,
      missingParts_eq_nil_iff c, missingPartsFrom_eq_nil_iff (i + 1) cs, Bool.or_eq_false_iff]

end

lemma Lacks.containsMissing (h : n.Lacks path m) : n.containsMissing = true := by
  have hlisted : (path, m.span.start) ∈ n.missingParts := mem_missingParts_iff.mpr ⟨m, h, rfl⟩
  by_contra hnone
  rw [(missingParts_eq_nil_iff n).mpr (Bool.eq_false_iff.mpr hnone)] at hlisted
  cases hlisted

/-! ### The nearest of them -/

lemma nearestMissing_eq_leastBy? (n : Node) (offset : Nat) : n.nearestMissing offset
    = (leastBy? (fun part => distance part.2 offset) n.missingParts).map (·.1) := by
  have hcloser : nearestMissing.closer offset
      = leastBy?.better fun part : Path × Nat => distance part.2 offset := by
    funext best part
    cases best <;> rfl
  rw [nearestMissing, hcloser, leastBy?]

/-- A node has no nearest missing part if nothing in it is missing. -/
lemma nearestMissing_eq_none_iff : n.nearestMissing offset = none ↔ n.containsMissing = false := by
  rw [nearestMissing_eq_leastBy?, Option.map_eq_none_iff, leastBy?_eq_none_iff, missingParts_eq_nil_iff]

/-- A node of which a part is missing has a nearest missing part. -/
lemma exists_nearestMissing (h : n.containsMissing = true) (offset : Nat) :
    ∃ nearest, n.nearestMissing offset = some nearest := by
  refine Option.ne_none_iff_exists'.mp fun hnone => ?_
  rw [nearestMissing_eq_none_iff.mp hnone] at h
  cases h

/-- The path to an outermost missing part such that no other one is closer to the offset. -/
def IsClosest (n : Node) (offset : Nat) (path : Path) : Prop :=
  ∃ m, n.Lacks path m
    ∧ ∀ other k, n.Lacks other k → distance m.span.start offset ≤ distance k.span.start offset

/-- An element of a part of a list cuts the list: what follows in the part follows in the list. -/
lemma exists_cut_of_sublist {α : Type} {front back xs : List α} {x : α}
    (h : (front ++ x :: back).Sublist xs) :
    ∃ before after, xs = before ++ x :: after ∧ back.Sublist after := by
  obtain ⟨upTo, rest, rfl, -, hrest⟩ := List.append_sublist_iff.mp h
  obtain ⟨near, after, rfl, hmem, hafter⟩ := List.cons_sublist_iff.mp hrest
  obtain ⟨between, beyond, rfl⟩ := List.append_of_mem hmem
  refine ⟨upTo ++ between, beyond ++ after, by simp, ?_⟩
  exact hafter.trans (List.sublist_append_right beyond after)

/-- Of the missing parts that are listed the nearest is closer than those before it, and none behind it is
closer. -/
lemma exists_parts_nearestMissing (h : n.nearestMissing offset = some path) :
    ∃ front part back, n.missingParts = front ++ part :: back ∧ part.1 = path
      ∧ (∀ q ∈ front, distance part.2 offset < distance q.2 offset)
      ∧ ∀ q ∈ back, distance part.2 offset ≤ distance q.2 offset := by
  rw [nearestMissing_eq_leastBy?] at h
  obtain ⟨part, hpart, rfl⟩ := Option.map_eq_some_iff.mp h
  obtain ⟨front, back, hparts, hfront, hback⟩ := exists_parts_leastBy? hpart
  exact ⟨front, part, back, hparts, rfl, hfront, hback⟩

/-- No outermost missing part is closer than the nearest one. -/
lemma isClosest_of_nearestMissing (h : n.nearestMissing offset = some path) :
    n.IsClosest offset path := by
  obtain ⟨front, part, back, hparts, rfl, hfront, hback⟩ := exists_parts_nearestMissing h
  have hpart : part ∈ n.missingParts := by
    rw [hparts]
    simp
  obtain ⟨m, hm, hstart⟩ := mem_missingParts_iff.mp hpart
  refine ⟨m, hm, fun other k hk => ?_⟩
  have hother : (other, k.span.start) ∈ n.missingParts := mem_missingParts_iff.mpr ⟨k, hk, rfl⟩
  rw [hparts] at hother
  rw [hstart]
  rcases List.mem_append.mp hother with hother | hother
  · exact Nat.le_of_lt (hfront _ hother)
  · rcases List.mem_cons.mp hother with rfl | hother
    · exact Nat.le_refl _
    · exact hback _ hother

/-- The path to the nearest missing part leads to a missing part. -/
theorem nearestMissing_spec (h : n.nearestMissing offset = some path) :
    ∃ m, n.descendant? path = some m ∧ m.kind = .missing := by
  obtain ⟨m, hm, -⟩ := isClosest_of_nearestMissing h
  exact ⟨m, hm.part, hm.missing⟩

/-- The nearest missing part comes before all others that are as close. -/
lemma exists_paths_of_nearestMissing (h : n.nearestMissing offset = some path) :
    ∃ before after, n.paths = before ++ path :: after
      ∧ ∀ other ∈ before, ¬ n.IsClosest offset other := by
  obtain ⟨front, part, back, hparts, rfl, hfront, -⟩ := exists_parts_nearestMissing h
  -- The path to the nearest part cuts the paths as the part itself cuts the missing parts.
  have hsub := sublist_missingParts n
  rw [hparts, List.map_append, List.map_cons] at hsub
  obtain ⟨before, after, hpaths, hback⟩ := exists_cut_of_sublist hsub
  obtain ⟨-, -, hapart⟩ := List.nodup_append.mp (hpaths ▸ nodup_paths n)
  refine ⟨before, after, hpaths, ?_⟩
  rintro other hother ⟨k, hk, hle⟩
  have hlisted : (other, k.span.start) ∈ n.missingParts := mem_missingParts_iff.mpr ⟨k, hk, rfl⟩
  rw [hparts] at hlisted
  rcases List.mem_append.mp hlisted with hlisted | hlisted
  · obtain ⟨m, hm, hstart⟩ : ∃ m, n.Lacks part.1 m ∧ m.span.start = part.2 :=
      mem_missingParts_iff.mp (by rw [hparts]; simp)
    have hfarther : distance part.2 offset < distance k.span.start offset := hfront _ hlisted
    have hcloser : distance k.span.start offset ≤ distance m.span.start offset := hle part.1 m hm
    rw [hstart] at hcloser
    exact Nat.not_lt.mpr hcloser hfarther
  · rcases List.mem_cons.mp hlisted with hpart | hlisted
    · exact hapart other hother part.1 List.mem_cons_self (congrArg Prod.fst hpart)
    · have hbehind : other ∈ after := hback.subset (List.mem_map_of_mem hlisted)
      exact hapart other hother other (List.mem_cons_of_mem _ hbehind) rfl

/-- A node has no nearest missing part just if nothing in it is missing. Otherwise the nearest is the first
of the outermost missing parts that are closest to the offset, in the order of the paths, which lead to the
nodes of the tree one after the other. -/
theorem nearestMissing_isFirst (n : Node) (offset : Nat) :
    (n.nearestMissing offset = none ↔ n.containsMissing = false)
      ∧ n.paths.map n.descendant? = n.descendants.map some
      ∧ ∀ path, n.nearestMissing offset = some path ↔ n.IsClosest offset path
        ∧ ∃ before after, n.paths = before ++ path :: after
          ∧ ∀ other ∈ before, ¬ n.IsClosest offset other := by
  classical
  -- The right side says what the search of the paths for a closest part finds.
  have hsearch : ∀ path, n.paths.find? (fun p => decide (n.IsClosest offset p)) = some path
      ↔ n.IsClosest offset path ∧ ∃ before after, n.paths = before ++ path :: after
        ∧ ∀ other ∈ before, ¬ n.IsClosest offset other := by
    intro path
    rw [List.find?_eq_some_iff_append]
    simp
  have hnearest : ∀ path, n.nearestMissing offset = some path →
      n.paths.find? (fun p => decide (n.IsClosest offset p)) = some path :=
    fun path h => (hsearch path).mpr ⟨isClosest_of_nearestMissing h, exists_paths_of_nearestMissing h⟩
  refine ⟨nearestMissing_eq_none_iff, map_descendant?_paths n, fun path => ?_⟩
  refine ⟨fun h => (hsearch path).mp (hnearest path h), fun h => ?_⟩
  obtain ⟨m, hm, -⟩ := h.1
  obtain ⟨nearest, hsome⟩ := exists_nearestMissing hm.containsMissing offset
  have hsame := (hnearest nearest hsome).symm.trans ((hsearch path).mpr h)
  rw [hsome, hsame]

/-- Of two missing parts that are as far away, before and behind the offset, the first one is taken. -/
example :
    let n := (leaf .block ⟨0, 9⟩).withChildren [missing .statement 3, missing .statement 7]
    n.nearestMissing 5 = some [0] ∧ n.nearestMissing 6 = some [1] := by
  decide

/-! ### Trees with nothing below missing parts -/

/-- Where nothing is below missing nodes, all of them are outermost. -/
lemma lacks_of_bare (h : n.Everywhere Bare) (hm : n.descendant? path = some m)
    (hkind : m.kind = .missing) : n.Lacks path m := by
  induction path generalizing n with
  | nil =>
    obtain rfl := Option.some.inj hm
    exact lacks_nil.mpr ⟨rfl, hkind⟩
  | cons i path ih =>
    obtain ⟨c, hc, hm⟩ := Option.bind_eq_some_iff.mp hm
    refine lacks_cons.mpr ⟨fun hmissing => ?_, c, hc, ih (h.inner c (List.mem_of_getElem? hc)) hm⟩
    rw [h.own hmissing] at hc
    cases hc

/-- No missing part is closer than the nearest one. -/
theorem distance_nearestMissing_le {path other : Path} {m k : Node} (h : n.Everywhere Bare)
    (hnearest : n.nearestMissing offset = some path) (hm : n.descendant? path = some m)
    (hk : n.descendant? other = some k) (hkind : k.kind = .missing) :
    distance m.span.start offset ≤ distance k.span.start offset := by
  obtain ⟨m', hm', hle⟩ := isClosest_of_nearestMissing hnearest
  obtain rfl : m' = m := Option.some.inj (hm'.part.symm.trans hm)
  exact hle other k (lacks_of_bare h hk hkind)

end Node

end Shorthand
