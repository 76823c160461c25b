import Shorthand.Insertion.Basic
import Shorthand.Proofs.Edit.Apply
import Shorthand.Proofs.Header.Unit
import Shorthand.Proofs.Insertion.Import
import Shorthand.Proofs.Token.ImportLine
import Shorthand.Proofs.Token.Splice

/-!
Reading a text with a new import.

The line of the import is put behind the last import, or else behind the package, or else to the top of
the text. Whatever is broken before or behind that place, the tree of the new text is the old one with
the declaration of the import in its place, apart from where the nodes stand.

* `qualifiedName?_ofName`: the tree of a name spells the name.
* `importEdit_eq`: what is put into a text, where, and the index of the new declaration.
* `withImport_tokens`: the tokens of the text with the import.
* `parse_withImport`: the tree of the text with the import.
-/

namespace Shorthand

open Text (bytes isBlank)

/-- The text with a new import. -/
def withImport (source name : String) : String :=
  .ofList ((importEdit (parse source).tree name).1.apply source.toList)

/-! ### Names -/

namespace Node

variable {name : String}

lemma qualifiedName?_inRole (n : Node) (role : Role) :
    (n.inRole role).qualifiedName? = n.qualifiedName? := by
  obtain ⟨kind, _, span, text, children⟩ := n
  rw [inRole]
  cases kind <;> rfl

lemma qualifiedName?_longer {n : Node} {spelled : String} (h : n.qualifiedName? = some spelled)
    (word : String) : (n.longer word).qualifiedName? = some (spelled ++ "." ++ word) := by
  have hqualifier : qualifierIn? [n.inRole .qualifier, (ofWord word).inRole .name] = some spelled := by
    rw [qualifierIn?, if_pos (by rfl), qualifiedName?_inRole, h]
  rw [longer, withChildren, detached, leaf, qualifiedName?, hqualifier]
  rfl

/-- Further words make the spelling of a name longer. -/
lemma exists_qualifiedName?_foldl {n : Node} {spelled : String} (h : n.qualifiedName? = some spelled)
    (words : List String) : ∃ all, (words.foldl longer n).qualifiedName? = some all
      ∧ all.toList = spelled.toList ++ furtherText words := by
  induction words generalizing n spelled with
  | nil => exact ⟨spelled, h, (List.append_nil _).symm⟩
  | cons word words ih =>
    obtain ⟨all, hall, hchars⟩ := ih (qualifiedName?_longer h word)
    refine ⟨all, hall, ?_⟩
    rw [hchars, furtherText, furtherText, List.flatMap_cons]
    simp

/-- The tree of a name spells the name. -/
lemma qualifiedName?_ofName (name : String) : (ofName name).qualifiedName? = some name := by
  obtain ⟨first, words, hwords⟩ := segments_eq_cons name
  obtain ⟨all, hall, hchars⟩ := exists_qualifiedName?_foldl (n := ofWord first) rfl words
  rw [← toList_segments hwords] at hchars
  rw [ofName_eq_ofWords hwords, ofWords, hall, String.toList_inj.mp hchars]

end Node

/-! ### Whether a type is imported -/

lemma importsType_unplace (name : String) (n : Node) :
    importsType name n.unplace = importsType name n := by
  rw [importsType, importsType, Node.hasModifier_unplace, Node.qualifiedName?_child_unplace,
    Node.unplace_eq, Node.spelling, Node.spelling]

/-- What a text imports does not depend on where it stands. -/
lemma alreadyImported_unplace (tree : Node) (name : String) :
    alreadyImported tree.unplace name = alreadyImported tree name := by
  rw [alreadyImported, alreadyImported, Node.childrenWith_unplace, List.any_map]
  exact congrArg (List.any _) (funext fun n => importsType_unplace name n)

lemma importsType_importNode (name : String) : importsType name (importNode name) = true := by
  have hname : ((importNode name).child? .name).bind Node.qualifiedName? = some name := by
    have hchild : (importNode name).child? .name = some ((Node.ofName name).inRole .name) := rfl
    rw [hchild, Option.bind_some, Node.qualifiedName?_inRole, Node.qualifiedName?_ofName]
  rw [importsType, hname, beq_self_eq_true, Bool.and_true]
  rfl

/-- A text imports the type of which the declaration is put in. -/
lemma alreadyImported_withInsertedChild (tree : Node) (index : Nat) (name : String) :
    alreadyImported (tree.withInsertedChild index (importNode name)) name = true := by
  have hmem : importNode name ∈ (tree.withInsertedChild index (importNode name)).children :=
    (List.mem_insertIdx (Nat.min_le_right _ _)).mpr (.inl rfl)
  exact List.any_eq_true.mpr
    ⟨importNode name, List.mem_filter.mpr ⟨hmem, rfl⟩, importsType_importNode name⟩

/-! ### The place of the import -/

/-- The children in a role, if they stand side by side. -/
lemma Node.indexedChildrenWith_eq {n : Node} {role : Role} {before ns after : List Node}
    (h : n.children = before ++ ns ++ after) (hbefore : ∀ m ∈ before, m.role ≠ role)
    (hns : ∀ m ∈ ns, m.role = role) (hafter : ∀ m ∈ after, m.role ≠ role) :
    n.indexedChildrenWith role = (ns.zipIdx before.length).map fun (c, i) => (i, c) := by
  have hnone {ms : List Node} (k : Nat) (hms : ∀ m ∈ ms, m.role ≠ role) :
      (ms.zipIdx k).filter (·.1.role == role) = [] := by
    refine List.filter_eq_nil_iff.mpr fun p hp => ?_
    rw [beq_iff_eq]
    exact hms _ (List.fst_mem_of_mem_zipIdx hp)
  have hall : (ns.zipIdx before.length).filter (·.1.role == role) = ns.zipIdx before.length := by
    refine List.filter_eq_self.mpr fun p hp => ?_
    rw [beq_iff_eq]
    exact hns _ (List.fst_mem_of_mem_zipIdx hp)
  rw [indexedChildrenWith, h, List.zipIdx_append, List.zipIdx_append, List.filter_append,
    List.filter_append, hnone _ hbefore, hnone _ hafter, Nat.zero_add, hall, List.append_nil,
    List.nil_append]

/-- The line of an import is put behind what stands before the types, with new lines around it. -/
theorem importEdit_eq {tree : Node} {package imports types : List Node} (name : String)
    (hchildren : tree.children = package ++ imports ++ types) (hsingle : package.length ≤ 1)
    (hpackage : ∀ p ∈ package, Parser.IsHeaderEntry .packageDeclaration .package p)
    (himports : ∀ i ∈ imports, Parser.IsHeaderEntry .importDeclaration .importDecl i)
    (htypes : ∀ t ∈ types, Parser.IsTopType t) : ∃ above below : List Char,
      (∀ c ∈ above ++ below, c = '\n')
      ∧ (package ++ imports = [] ∨ ∃ more, above = '\n' :: more)
      ∧ importEdit tree name
        = (.insertion (((package ++ imports).getLast?.map (·.span.stop)).getD 0)
            (String.ofList (above ++ (importLine name).toList ++ below)),
          (package ++ imports).length) := by
  have hindexed := Node.indexedChildrenWith_eq hchildren
    (fun p hp => by rw [(hpackage p hp).role]; decide) (fun i hi => (himports i hi).role)
    (fun t ht => by rw [(htypes t ht).role]; decide)
  rw [importEdit, hindexed, hchildren]
  rcases List.eq_nil_or_concat imports with rfl | ⟨front, last, rfl⟩
  · rcases package with _ | ⟨p, _ | ⟨q, ps⟩⟩
    · have hnone : (types.zipIdx.find? (·.1.kind == .packageDeclaration)) = none := by
        refine List.find?_eq_none.mpr fun t ht hkind => ?_
        have htype := (htypes _ (List.fst_mem_of_mem_zipIdx ht)).kind
        rw [beq_iff_eq.mp hkind] at htype
        cases htype
      refine ⟨[], ['\n', '\n'], by simp, .inl rfl, ?_⟩
      rw [List.append_nil, List.nil_append, hnone]
      exact congrArg (fun text => (TextEdit.insertion 0 text, 0)) (String.toList_inj.mp (by simp))
    · have hfind : ((p :: types).zipIdx.find? (·.1.kind == .packageDeclaration)) = some (p, 0) := by
        rw [List.zipIdx_cons, List.find?_cons, (hpackage p List.mem_cons_self).kind]
        rfl
      refine ⟨['\n', '\n'], [], by simp, .inr ⟨['\n'], rfl⟩, ?_⟩
      rw [List.append_nil, List.singleton_append, hfind]
      exact congrArg (fun text => (TextEdit.insertion p.span.stop text, 1))
        (String.toList_inj.mp (by simp))
    · simp at hsingle
  · have hlast : (((front.concat last).zipIdx package.length).map fun (c, i) => (i, c)).getLast?
        = some (package.length + front.length, last) := by
      rw [List.concat_eq_append, List.zipIdx_append, List.map_append]
      exact List.getLast?_concat
    have hstop : (package ++ front.concat last).getLast? = some last := by
      rw [List.concat_eq_append, ← List.append_assoc]
      exact List.getLast?_concat
    have hlength : (package ++ front.concat last).length = package.length + front.length + 1 := by
      rw [List.length_append, List.length_concat, Nat.add_assoc]
    refine ⟨['\n'], [], by simp, .inr ⟨[], rfl⟩, ?_⟩
    rw [hlast, hstop, hlength]
    exact congrArg (fun text => (TextEdit.insertion last.span.stop text, _))
      (String.toList_inj.mp (by simp))

/-! ### The line as tokens -/

section Line

variable {rest read : List Char} {pos : Nat} {ps : List (Nat × Lexeme)} {name first : String}
  {words : List String}

/-- New lines are skipped. -/
lemma Taken.newlines {cs : List Char} (hcs : ∀ c ∈ cs, c = '\n')
    (h : Taken rest (pos + bytes cs) read ps) : Taken rest pos (cs ++ read) ps := by
  induction cs generalizing pos with
  | nil => exact h
  | cons c cs ih =>
    obtain ⟨rfl, hrest⟩ := List.forall_mem_cons.mp hcs
    rw [Text.bytes_cons, ← Nat.add_assoc] at h
    exact .blank rfl (ih hrest h)

/-- The line of an import is read as one between new lines, too. -/
lemma taken_line_between (h : Ty.segments name = first :: words)
    (hwords : ∀ word ∈ first :: words, IsIdentifier word) {above below : List Char}
    (hlines : ∀ c ∈ above ++ below, c = '\n') (rest : List Char) (pos : Nat) :
    ∃ ps, Taken rest pos (above ++ (importLine name).toList ++ below) ps
      ∧ pieceKinds ps = importKinds first words := by
  obtain ⟨habove, hbelow⟩ := List.forall_mem_append.mp hlines
  obtain ⟨ps, hps, hkinds⟩ := taken_importLine h hwords (below ++ rest) (pos + bytes above)
  have hbelow' (pos : Nat) : Taken rest pos below [] := by
    rw [← List.append_nil below]
    exact .newlines hbelow .done
  refine ⟨ps, ?_, hkinds⟩
  rw [List.append_assoc, ← List.append_nil ps]
  exact .newlines habove (hps.append (hbelow' _))

lemma inHeader_importKinds : ∀ k ∈ importKinds first words, k.inHeader = true := by
  intro k hk
  simp only [importKinds, furtherKinds, List.mem_cons, List.mem_append, List.mem_flatMap,
    List.not_mem_nil, or_false] at hk
  rcases hk with rfl | rfl | ⟨word, -, rfl | rfl⟩ | rfl <;> rfl

/-- Where the tokens of an import are put into a text its declaration is read. -/
lemma Parser.adds_importNode {f : Fork} {ts : List Token}
    (hright : f.right = ts ++ f.left.map (.later f.offset))
    (hname : Ty.segments name = first :: words) (hts : ts.map (·.kind) = importKinds first words) :
    Adds f (importNode name) := by
  intro d hd
  have hkinds : d.kinds = importKinds first words ++ f.left.map (·.kind) := by
    rw [Cursor.kinds, hd, hright, List.map_append, hts, List.map_map]
    rfl
  have hplaced := importDeclaration_placed (c := d) (by
    rw [Cursor.kindAt_zero hkinds]
    rintro ⟨⟩)
  refine After.imp ((importDeclaration_written hname hkinds).and hplaced) fun n d' hread => ?_
  obtain ⟨⟨hn, hd'⟩, hplaced⟩ := hread
  refine ⟨hn, ?_⟩
  obtain ⟨us, hus⟩ := hplaced.1.reads.suffix
  rw [hd, hright] at hus
  have hlength : d'.ahead.length = (f.left.map (Token.later f.offset)).length := by
    simpa [Cursor.kinds] using congrArg List.length hd'
  exact (List.append_inj' hus hlength).2

end Line

/-! ### The new text -/

/-- The tree of a text, with the tokens that stand before its types. -/
lemma parse_unitForked (source : String) : ∃ package imports types ts rest textEnd,
    (parse source).tree
      = ⟨.compilationUnit, .unplaced, ⟨0, textEnd⟩, none, package ++ imports ++ types⟩
    ∧ Parser.UnitForked (Cursor.front source) package imports types ts rest := by
  obtain ⟨c', ⟨package, imports, types, ts, rest, htree, hunit⟩, -⟩ := ParseOutput.of_after
    (Parser.compilationUnit_forked (fits_ofTokens source) (Nat.le_succ _))
  exact ⟨package, imports, types, ts, rest, c'.textEnd, htree, hunit⟩

lemma insertIdx_append_length {α : Type} (as bs : List α) (x : α) :
    (as ++ bs).insertIdx as.length x = as ++ x :: bs := by
  induction as with
  | nil => rfl
  | cons a as ih =>
    rw [List.cons_append, List.length_cons, List.insertIdx_succ_cons, ih, List.cons_append]

/-- A child that is put in behind the first ones comes before the others. -/
lemma withInsertedChild_append {n : Node} {before after : List Node}
    (h : n.children = before ++ after) (child : Node) :
    n.withInsertedChild before.length child = n.withChildren (before ++ child :: after) := by
  have hindex : min before.length (before ++ after).length = before.length :=
    Nat.min_eq_left (List.prefix_append _ _).length_le
  rw [Node.withInsertedChild, h, hindex, insertIdx_append_length, Node.withChildren]

/-- The tokens of a text into which the line of an import is put behind some tokens of imports. -/
lemma front_inserted {source name first : String} {words : List String} {ts rest : List Token}
    {above below : List Char} (hahead : (Cursor.front source).ahead = ts ++ rest)
    (hts : ∀ t ∈ ts, t.kind.inHeader = true) (h : Ty.segments name = first :: words)
    (hwords : ∀ word ∈ first :: words, IsIdentifier word) (hlines : ∀ c ∈ above ++ below, c = '\n')
    (htop : ts = [] ∨ ∃ more, above = '\n' :: more) : ∃ before after, source.toList = before ++ after
      ∧ bytes before = (ts.getLast?.map (·.span.stop)).getD 0
      ∧ ∀ line, line = above ++ (importLine name).toList ++ below → ∃ new,
        new.map (·.kind) = importKinds first words
        ∧ (Cursor.front (.ofList (before ++ line ++ after))).ahead
          = ts ++ (new ++ rest.map (.later (bytes line))) := by
  have hsolid : solid (lexemesFrom 0 0 source.toList) = ts ++ rest :=
    (ahead_ofTokens source (bytes source.toList)).symm.trans hahead
  obtain ⟨before, after, hsource, hstop, hinserted⟩ := exists_solid_inserted hsolid hts
  obtain ⟨ps, hps, hkinds⟩ := taken_line_between h hwords hlines after (bytes before)
  refine ⟨before, after, hsource, hstop, ?_⟩
  rintro line rfl
  have hnew := hinserted _ ps (htop.imp_right fun ⟨more, hmore⟩ => ⟨_, by rw [hmore]; rfl⟩) hps
  refine ⟨solid ps, ?_, ?_⟩
  · have hall : ∀ p ∈ ps, p.2.kind.isSolid = true := by
      intro p hp
      have hk : p.2.kind ∈ importKinds first words := by
        rw [← hkinds]
        exact List.mem_map_of_mem hp
      exact isSolid_of_inHeader (inHeader_importKinds _ hk)
    rw [solid_kinds hall, hkinds]
  · rw [List.append_assoc ts] at hnew
    refine (ahead_ofTokens _ _).trans ?_
    rw [String.toList_ofList, hnew]

/-- A text that has the tokens of a further import behind what stands before the types of another text
has the declaration of the import there, too. -/
lemma same_inserted {source text name first : String} {words : List String}
    {package imports types : List Node} {ts rest new : List Token} {textEnd offset : Nat}
    (htree : (parse source).tree
      = ⟨.compilationUnit, .unplaced, ⟨0, textEnd⟩, none, package ++ imports ++ types⟩)
    (hunit : Parser.UnitForked (Cursor.front source) package imports types ts rest)
    (h : Ty.segments name = first :: words) (hnew : new.map (·.kind) = importKinds first words)
    (hahead : (Cursor.front text).ahead = ts ++ (new ++ rest.map (.later offset))) :
    Node.Same ((parse source).tree.withInsertedChild (package ++ imports).length (importNode name))
      (parse text).tree := by
  have hopens : (new ++ rest.map (Token.later offset)).head?.map Token.kind
      = some (.keyword .importKw) := by
    rw [← List.head?_map, List.map_append, hnew]
    rfl
  have hjoint : Cursor.Joint ⟨rest, new ++ rest.map (.later offset), offset, hopens⟩
      (Cursor.front source) (Cursor.front text) := ⟨ts, hunit.ahead, hahead⟩
  obtain ⟨c', hsame, -⟩ := ParseOutput.of_after (hunit.forked _ _ _ (importNode name) hjoint rfl
    (Nat.le_succ _) (Parser.adds_importNode rfl h hnew))
  refine Eq.trans ?_ hsame
  rw [withInsertedChild_append (by rw [htree]), htree, List.append_assoc _ [_], List.singleton_append]
  exact Node.Same.mk (.refl _)

/-- What asks for an import that the text has adds none. -/
lemma insertion?_edits {d : Document} {tree : Node} {f : Fragment} {i : Insertion} {name : String}
    (hf : f.importName? = some name) (himported : alreadyImported tree name = true)
    (h : insertion? d tree f = .ok (some i)) :
    ∃ s, spliceCode? d.text.toList tree d.cursor f.code = some s ∧ i.edits = [s.edit] := by
  have hmissing : missingImport? tree f = none := by
    rw [missingImport?, hf]
    simp [himported]
  rw [insertion?, hmissing] at h
  split at h
  · cases h
  · next s hs =>
    refine ⟨s, hs, ?_⟩
    cases hnew : s.newTree d tree none with
    | error e =>
      simp only [hnew] at h
      cases h
    | ok edited =>
      simp only [hnew] at h
      obtain rfl := Option.some.inj (Except.ok.inj h)
      simp [Splice.edits, TextEdit.inOrder]

/-- The edit that adds an import is one of the text, the new declaration comes behind what stands
before the types, and so do its tokens in the new text. -/
lemma withImport_tokens {source name first : String} {words : List String}
    {package imports types : List Node} {ts rest : List Token}
    (h : Ty.segments name = first :: words) (hwords : ∀ word ∈ first :: words, IsIdentifier word)
    (hchildren : (parse source).tree.children = package ++ imports ++ types)
    (hunit : Parser.UnitForked (Cursor.front source) package imports types ts rest) :
    (importEdit (parse source).tree name).1.isWithin source.toList = true
      ∧ (importEdit (parse source).tree name).2 = (package ++ imports).length
      ∧ ∃ new offset, new.map (·.kind) = importKinds first words
        ∧ (Cursor.front (withImport source name)).ahead = ts ++ (new ++ rest.map (.later offset)) := by
  obtain ⟨above, below, hlines, htop, hedit⟩ := importEdit_eq name hchildren hunit.single
    hunit.isPackage hunit.isImport hunit.isType
  have htop : ts = [] ∨ ∃ more, above = '\n' :: more := by
    refine htop.imp_left fun hnil => ?_
    have hstops := hunit.stops
    rw [hnil] at hstops
    exact List.getLast?_eq_none_iff.mp (Option.map_eq_none_iff.mp hstops.symm)
  obtain ⟨before, after, hsource, hbefore, hfront⟩ :=
    front_inserted hunit.ahead hunit.header h hwords hlines htop
  obtain ⟨new, hnew, hahead⟩ := hfront _ rfl
  -- The text is cut where the tokens end, and that is where the edit is.
  have hstart : bytes before = (importEdit (parse source).tree name).1.span.start := by
    rw [hedit, hbefore, ← hunit.stops]
    rfl
  have hstop : bytes before + bytes [] = (importEdit (parse source).tree name).1.span.stop := by
    rw [hstart, hedit]
    rfl
  have htext : withImport source name
      = .ofList (before ++ (above ++ (importLine name).toList ++ below) ++ after) := by
    have happly : (importEdit (parse source).tree name).1.apply (before ++ [] ++ after)
        = before ++ (importEdit (parse source).tree name).1.text.toList ++ after :=
      TextEdit.apply_of_parts hstart hstop
    rw [List.append_nil, ← hsource] at happly
    rw [withImport, happly, hedit, TextEdit.insertion, String.toList_ofList]
  refine ⟨TextEdit.isWithin_iff.mpr ⟨before, [], after, ?_, hstart, hstop⟩, by rw [hedit],
    new, _, hnew, htext ▸ hahead⟩
  rw [List.append_nil, hsource]

/-- Reading a text with a new import gives the tree of the text with the declaration of the import put
in, apart from where the nodes stand. The text imports the type then, and an insertion that asks for it
is that of the fragment alone. -/
theorem parse_withImport (source name : String)
    (hname : ∀ word ∈ Ty.segments name, IsIdentifier word) :
    (importEdit (parse source).tree name).1.isWithin source.toList = true
      ∧ (importEdit (parse source).tree name).2 ≤ (parse source).tree.children.length
      ∧ (parse (withImport source name)).tree.unplace
        = ((parse source).tree.withInsertedChild (importEdit (parse source).tree name).2
            (importNode name)).unplace
      ∧ alreadyImported (parse (withImport source name)).tree name = true
      ∧ ∀ cursor f i, f.importName? = some name →
        insertion? ⟨withImport source name, cursor⟩ (parse (withImport source name)).tree f
          = .ok (some i) →
        ∃ s, spliceCode? (withImport source name).toList (parse (withImport source name)).tree cursor
          f.code = some s ∧ i.edits = [s.edit] := by
  obtain ⟨first, words, hwords⟩ := segments_eq_cons name
  obtain ⟨package, imports, types, ts, rest, textEnd, htree, hunit⟩ := parse_unitForked source
  have hchildren : (parse source).tree.children = package ++ imports ++ types := by rw [htree]
  obtain ⟨hwithin, hindex, new, offset, hnew, hahead⟩ :=
    withImport_tokens hwords (hwords ▸ hname) hchildren hunit
  have hsame := same_inserted htree hunit hwords hnew hahead
  have himported : alreadyImported (parse (withImport source name)).tree name = true := by
    rw [← alreadyImported_unplace, ← hsame, alreadyImported_unplace, alreadyImported_withInsertedChild]
  refine ⟨hwithin, ?_, ?_, himported, fun cursor f i hf => insertion?_edits hf himported⟩
  · rw [hindex, hchildren]
    exact (List.prefix_append _ _).length_le
  · rw [hindex]
    exact hsame.symm

/-- A dot behind which no word follows is not part of an import: the new one goes before it. -/
theorem parse_withImport_dot :
    (∀ word ∈ Ty.segments "java.util.List", IsIdentifier word)
      ∧ withImport "import a.\nclass B" "java.util.List"
        = "import a\nimport java.util.List;.\nclass B"
      ∧ (parse (withImport "import a.\nclass B" "java.util.List")).tree.unplace
        = ((parse "import a.\nclass B").tree.withInsertedChild 1
            (importNode "java.util.List")).unplace := by
  have hsegments : Ty.segments "java.util.List" = ["java", "util", "List"] := by decide +kernel
  have hname : ∀ word ∈ Ty.segments "java.util.List", IsIdentifier word := by
    rw [hsegments]
    refine List.forall_mem_cons.mpr
      ⟨⟨⟨'j', _, rfl, rfl, rfl⟩, List.all_eq_true.mp (by decide), by decide⟩, ?_⟩
    refine List.forall_mem_cons.mpr
      ⟨⟨⟨'u', _, rfl, rfl, rfl⟩, List.all_eq_true.mp (by decide), by decide⟩, ?_⟩
    exact List.forall_mem_singleton.mpr
      ⟨⟨'L', _, rfl, rfl, rfl⟩, List.all_eq_true.mp (by decide), by decide⟩
  obtain ⟨-, -, hsame, -, -⟩ := parse_withImport "import a.\nclass B" "java.util.List" hname
  have hindex : (importEdit (parse "import a.\nclass B").tree "java.util.List").2 = 1 := by
    decide +kernel
  rw [hindex] at hsame
  exact ⟨hname, by decide +kernel, hsame⟩

end Shorthand
