import Shorthand.Proofs.Reading.Progress
import Shorthand.Proofs.Text.Boundary

/-!
Where the nodes of a tree lie in the text.

Tokens lie in the text one behind the other (`Cursor.Fits`), and so do the children of a node, none of
them before the node itself (`Node.LaidOut`). `PlacedAll c ns c'` says of nodes read between two cursors
that they lie between the places where these stand, one behind the other, and that the same holds of all
below them.

* `PlacedAll.trans` and `PlacedAll.cons` put what was read in steps side by side.
* `PlacedAll.node` makes a node of it.
-/

namespace Shorthand

/-! ### Trees -/

namespace Kind

/-- The kinds of names, literals, modifiers and types that are one token. -/
def isLeaf : Kind → Bool
  | simpleName | numberLiteral | characterLiteral | stringLiteral | textBlock | booleanLiteral
  | nullLiteral | modifier | primitiveType => true
  | _ => false

/-- The kinds of nodes that are made of parts: they are neither one token nor missing. -/
def isComposed (k : Kind) : Bool := !k.isLeaf && k != .missing

lemma not_isLeaf_of_isComposed {k : Kind} (h : k.isComposed = true) : ¬ k.isLeaf = true := by
  simp_all [isComposed]

lemma ne_missing_of_isComposed {k : Kind} (h : k.isComposed = true) : k ≠ .missing := by
  simp_all [isComposed]

end Kind

namespace Node

/-- Nodes lie one behind the other from an offset up to another one. -/
def InOrder : Nat → List Node → Nat → Prop
  | lo, [], hi => lo ≤ hi
  | lo, n :: ns, hi =>
    lo ≤ n.span.start ∧ n.span.start ≤ n.span.stop ∧ InOrder n.span.stop ns hi

namespace InOrder

variable {lo lo' mid hi hi' : Nat} {n : Node} {ns ms : List Node}

lemma le (h : InOrder lo ns hi) : lo ≤ hi := by
  induction ns generalizing lo with
  | nil => exact h
  | cons n ns ih =>
    obtain ⟨hlo, hn, hns⟩ := h
    have := ih hns
    omega

lemma of_le (h : InOrder lo ns hi) (hlo : lo' ≤ lo) : InOrder lo' ns hi := by
  cases ns with
  | nil => exact Nat.le_trans hlo h
  | cons n ns => exact ⟨Nat.le_trans hlo h.1, h.2⟩

lemma append (h : InOrder lo ns mid) (h' : InOrder mid ms hi) : InOrder lo (ns ++ ms) hi := by
  induction ns generalizing lo with
  | nil => exact h'.of_le h
  | cons n ns ih => exact ⟨h.1, h.2.1, ih h.2.2⟩

lemma start_le (h : InOrder lo ns hi) (hn : n ∈ ns) : lo ≤ n.span.start := by
  induction ns generalizing lo with
  | nil => cases hn
  | cons m ns ih =>
    obtain ⟨hlo, hm, hns⟩ := h
    rcases List.mem_cons.mp hn with rfl | hn
    · exact hlo
    · have := ih hns hn
      omega

lemma stop_le (h : InOrder lo ns hi) (hn : n ∈ ns) : n.span.stop ≤ hi := by
  induction ns generalizing lo with
  | nil => cases hn
  | cons m ns ih =>
    rcases List.mem_cons.mp hn with rfl | hn
    · exact h.2.2.le
    · exact ih h.2.2 hn

lemma take (h : InOrder lo ns hi) (k : Nat) : InOrder lo (ns.take k) hi := by
  induction ns generalizing lo k with
  | nil => simpa using h
  | cons n ns ih =>
    cases k with
    | zero => exact le h
    | succ k => exact ⟨h.1, h.2.1, ih h.2.2 k⟩

lemma map_inRole (h : InOrder lo ns hi) (role : Role) : InOrder lo (ns.map (·.inRole role)) hi := by
  induction ns generalizing lo with
  | nil => exact h
  | cons n ns ih => exact ⟨h.1, h.2.1, ih h.2.2⟩

end InOrder

/-- A property holds of a node and of all nodes below it. -/
inductive Everywhere (P : Node → Prop) : Node → Prop
  | mk {n : Node} (own : P n) (inner : ∀ c ∈ n.children, Everywhere P c) : Everywhere P n

namespace Everywhere

variable {P Q : Node → Prop} {n m : Node}

lemma own (h : n.Everywhere P) : P n := by
  cases h
  assumption

lemma inner (h : n.Everywhere P) : ∀ c ∈ n.children, c.Everywhere P := by
  cases h
  assumption

lemma imp (h : n.Everywhere P) (hPQ : ∀ m, P m → Q m) : n.Everywhere Q := by
  induction h with
  | mk own inner ih => exact .mk (hPQ _ own) ih

lemma and (h : n.Everywhere P) (h' : n.Everywhere Q) : n.Everywhere fun m => P m ∧ Q m := by
  induction h with
  | mk own inner ih => exact .mk ⟨own, h'.own⟩ fun c hc => ih c hc (h'.inner c hc)

/-- What holds everywhere in a node holds of the node at the end of any path. -/
lemma descendant? {path : Path} (h : n.Everywhere P) (hm : n.descendant? path = some m) :
    m.Everywhere P := by
  induction path generalizing n with
  | nil =>
    rw [Node.descendant?, Option.some.injEq] at hm
    rwa [← hm]
  | cons i path ih =>
    rw [Node.descendant?] at hm
    obtain ⟨c, hc, hm⟩ := Option.bind_eq_some_iff.mp hm
    exact ih (h.inner c (List.mem_of_getElem? hc)) hm

end Everywhere

/-- A node keeps the text that it covers. -/
def Spelled (n : Node) (src : List Char) : Prop :=
  ∃ text, n.text = some text ∧ Text.slice? n.span.start n.span.stop src = some text.toList

/-- A conditional statement of which the last branch is missing: it reaches as far as the place of that
branch, which can lie behind the last token of the statement. -/
def Waits (n : Node) : Prop :=
  n.kind = .ifStatement ∧ ∃ branch, n.children.getLast? = some branch ∧ branch.kind = .missing

/-- A node ends at or before an offset, unless it covers nothing or waits for a branch. -/
def EndsBy (offset : Nat) (n : Node) : Prop :=
  n.span.stop ≤ offset ∨ n.span.stop = n.span.start ∨ n.Waits

namespace EndsBy

variable {offset offset' : Nat} {n : Node}

lemma of_le (h : n.EndsBy offset) (hle : offset ≤ offset') : n.EndsBy offset' :=
  h.imp (fun hstop => Nat.le_trans hstop hle) id

lemma inRole (h : n.EndsBy offset) (role : Role) : (n.inRole role).EndsBy offset := h

lemma withText (h : n.EndsBy offset) (text : String) : (n.withText text).EndsBy offset := h

end EndsBy

/-- A node lies in a text: its ends are boundaries, its children lie one behind the other and none of
them before it or, as far as they are finished, beyond its end, it is empty if it is missing, and it keeps
its text if it is a leaf. -/
structure LaidOut (src : List Char) (n : Node) : Prop where
  le : n.span.start ≤ n.span.stop
  start : Text.isBoundary n.span.start src = true
  stop : Text.isBoundary n.span.stop src = true
  children : ∃ hi, InOrder n.span.start n.children hi
  within : ∀ c ∈ n.children, c.EndsBy n.span.stop
  missing : n.kind = .missing → n.span.stop = n.span.start
  spelled : n.kind.isLeaf = true → n.Spelled src

/-- A node and all below it lie in a text. -/
abbrev Laid (src : List Char) (n : Node) : Prop := n.Everywhere (LaidOut src)

namespace Laid

variable {src : List Char} {n : Node} {ns : List Node}

/-- The children of a node that is laid out are laid out, and so is a node made of them. -/
lemma of_children {hi : Nat} (hns : ∀ m ∈ ns, m.Laid src) (hin : InOrder n.span.start ns hi)
    (hends : ∀ m ∈ ns, m.EndsBy n.span.stop) (hle : n.span.start ≤ n.span.stop)
    (hstart : Text.isBoundary n.span.start src = true)
    (hstop : Text.isBoundary n.span.stop src = true) (hn : n.children = ns)
    (hkind : n.kind.isComposed = true) : n.Laid src := by
  subst hn
  exact .mk ⟨hle, hstart, hstop, ⟨hi, hin⟩, hends, fun h => absurd h (Kind.ne_missing_of_isComposed hkind),
    fun h => absurd h (Kind.not_isLeaf_of_isComposed hkind)⟩ hns

lemma inRole (h : n.Laid src) (role : Role) : (n.inRole role).Laid src :=
  .mk ⟨h.own.le, h.own.start, h.own.stop, h.own.children, h.own.within, h.own.missing, h.own.spelled⟩
    h.inner

/-- A node that is not a leaf can keep any text. -/
lemma withText (h : n.Laid src) (text : String) (hkind : n.kind.isLeaf = false) :
    (n.withText text).Laid src := by
  refine .mk ⟨h.own.le, h.own.start, h.own.stop, h.own.children, h.own.within, h.own.missing,
    fun hleaf => ?_⟩ h.inner
  exact absurd hleaf (by rw [show (n.withText text).kind = n.kind from rfl, hkind]; decide)

lemma missing {offset : Nat} (h : Text.isBoundary offset src = true) (role : Role) :
    (Node.missing role offset).Laid src :=
  .mk ⟨Nat.le_refl _, h, h, ⟨offset, Nat.le_refl _⟩, nofun, fun _ => rfl, nofun⟩
    (by simp [Node.missing])

end Laid

/-- The node is a place at which code is put: a missing part, or a creation, which can be replaced. -/
def IsOpening (n : Node) : Prop := n.kind = .missing ∨ n.kind = .classInstanceCreation

/-- All places in a node at which code is put lie behind an offset. -/
abbrev OpensBehind (offset : Nat) (n : Node) : Prop :=
  n.Everywhere fun m => m.IsOpening → offset < m.span.start

namespace OpensBehind

variable {offset : Nat} {n : Node}

lemma of_children (hn : ¬ n.IsOpening) (h : ∀ c ∈ n.children, c.OpensBehind offset) :
    n.OpensBehind offset :=
  .mk (fun hopen => absurd hopen hn) h

lemma inRole (h : n.OpensBehind offset) (role : Role) : (n.inRole role).OpensBehind offset :=
  .mk h.own h.inner

end OpensBehind

/-- Nothing in a node that is laid out lies before it. -/
lemma Laid.opensBehind {src : List Char} {offset : Nat} {n : Node} (h : n.Laid src)
    (hlt : offset < n.span.start) : n.OpensBehind offset := by
  induction h with
  | mk own inner ih =>
    refine .mk (fun _ => hlt) fun c hc => ih c hc ?_
    obtain ⟨hi, hin⟩ := own.children
    exact Nat.lt_of_lt_of_le hlt (hin.start_le hc)

end Node

/-! ### Cursors -/

/-- The characters of a token, where its kind keeps them. -/
def TokenKind.written? : TokenKind → Option (List Char)
  | punct p => some p.chars
  | compoundAssign spelling | ident spelling | literal _ spelling => some spelling.toList
  | keyword k => some k.spelling.toList
  | lineComment text => some ('/' :: '/' :: text.toList)
  | blockComment _ | unknown | eof => none

/-- The token is a name, a keyword or a literal. -/
def Parser.isWord : TokenKind → Bool
  | .ident _ | .keyword _ | .literal _ _ => true
  | _ => false

lemma Parser.written?_of_isWord {k : TokenKind} (h : isWord k = true) :
    k.written? = some (leafText k).toList := by
  cases k with
  | ident | keyword | literal => rfl
  | _ => cases h

namespace Token

/-- Tokens lie in a text one behind the other from an offset on, and each covers some of the text. -/
def InOrder (src : List Char) : Nat → List Token → Prop
  | lo, [] => lo ≤ Text.bytes src
  | lo, t :: ts =>
    lo ≤ t.span.start ∧ t.span.start < t.span.stop ∧ Text.isBoundary t.span.start src = true
      ∧ Text.isBoundary t.span.stop src = true ∧ InOrder src t.span.stop ts

/-- An offset lies in what a token covers. -/
def Covers (t : Token) (offset : Nat) : Prop := t.span.start ≤ offset ∧ offset < t.span.stop

/-- A token keeps the characters that it covers, if it keeps any. -/
def Spelled (t : Token) (src : List Char) : Prop :=
  ∀ spelling, t.kind.written? = some spelling → Text.slice? t.span.start t.span.stop src = some spelling

end Token

namespace Cursor

variable {src : List Char} {c c' : Cursor}

/-- The offset up to which tokens were taken. -/
def reached (c : Cursor) : Nat := c.lastEnd.getD 0

/-- A cursor stands in a text. -/
structure Fits (src : List Char) (c : Cursor) : Prop where
  textEnd : c.textEnd = Text.bytes src
  reached : Text.isBoundary c.reached src = true
  ahead : Token.InOrder src c.reached c.ahead
  spelled : ∀ t ∈ c.ahead, t.Spelled src

lemma backOffset_advance (hc : c.kindAt 0 ≠ .eof) :
    c.advance.backOffset = (c.peek 0).span.stop := by
  cases ha : c.ahead with
  | nil => simp [kindAt, peek, ha, Token.eofAt] at hc
  | cons t ts => simp [advance_of_ahead ha, backOffset, peek, ha]

namespace Fits

lemma advance (h : c.Fits src) : c.advance.Fits src := by
  cases ha : c.ahead with
  | nil => rwa [advance_of_end ha]
  | cons t ts =>
    have hahead := h.ahead
    rw [ha] at hahead
    rw [advance_of_ahead ha]
    exact ⟨h.textEnd, hahead.2.2.2.1, hahead.2.2.2.2,
      fun u hu => h.spelled u (ha ▸ List.mem_cons_of_mem t hu)⟩

lemma later (h : c.Fits src) (hr : Reads c c') : c'.Fits src := by
  induction hr with
  | refl => exact h
  | advance _ ih => exact ih.advance
  | complain d _ ih => exact ⟨ih.textEnd, ih.reached, ih.ahead, ih.spelled⟩

lemma reached_le_offset (h : c.Fits src) : c.reached ≤ c.offset := by
  have hahead := h.ahead
  cases ha : c.ahead with
  | nil =>
    rw [ha] at hahead
    simpa [offset, peek, ha, Token.eofAt, Span.empty, h.textEnd, Token.InOrder] using hahead
  | cons t ts =>
    rw [ha] at hahead
    simpa [offset, peek, ha] using hahead.1

lemma offset_boundary (h : c.Fits src) : Text.isBoundary c.offset src = true := by
  have hahead := h.ahead
  cases ha : c.ahead with
  | nil =>
    simpa [offset, peek, ha, Token.eofAt, Span.empty, h.textEnd] using Text.isBoundary_bytes src
  | cons t ts =>
    rw [ha] at hahead
    simpa [offset, peek, ha] using hahead.2.2.1

lemma backOffset_boundary (h : c.Fits src) : Text.isBoundary c.backOffset src = true := by
  have hreached := h.reached
  rw [backOffset]
  rw [Cursor.reached] at hreached
  cases hl : c.lastEnd with
  | none => exact h.offset_boundary
  | some stop => simpa [hl] using hreached

lemma backOffset_le_offset (h : c.Fits src) : c.backOffset ≤ c.offset := by
  have hle := h.reached_le_offset
  rw [backOffset]
  rw [Cursor.reached] at hle
  cases hl : c.lastEnd with
  | none => exact Nat.le_refl _
  | some stop => simpa [hl] using hle

/-- The next token ends behind where it starts, and what follows it does not start before its end. -/
lemma token_le (h : c.Fits src) :
    c.offset ≤ (c.peek 0).span.stop ∧ (c.peek 0).span.stop ≤ c.advance.offset
      ∧ Text.isBoundary (c.peek 0).span.stop src = true := by
  have hahead := h.ahead
  cases ha : c.ahead with
  | nil =>
    have hpeek : c.peek 0 = .eofAt (Text.bytes src) := by simp [peek, ha, h.textEnd]
    rw [advance_of_end ha, offset, hpeek]
    exact ⟨Nat.le_refl _, Nat.le_refl _, Text.isBoundary_bytes src⟩
  | cons t ts =>
    have hpeek : c.peek 0 = t := by simp [peek, ha]
    rw [ha] at hahead
    have hafter := h.advance.reached_le_offset
    rw [advance_of_ahead ha] at hafter ⊢
    rw [offset, hpeek]
    exact ⟨Nat.le_of_lt hahead.2.1, hafter, hahead.2.2.2.1⟩

/-- The next token, if it is a word, covers that word. -/
lemma spelled_peek (h : c.Fits src) (hk : Parser.isWord (c.kindAt 0) = true) :
    Text.slice? (c.peek 0).span.start (c.peek 0).span.stop src
      = some (Parser.leafText (c.kindAt 0)).toList := by
  have hwritten := Parser.written?_of_isWord hk
  cases ha : c.ahead with
  | nil => simp [kindAt, peek, ha, Token.eofAt, Parser.isWord] at hk
  | cons t ts =>
    have hpeek : c.peek 0 = t := by simp [peek, ha]
    rw [kindAt, hpeek] at hwritten
    rw [kindAt, hpeek]
    exact h.spelled t (by rw [ha]; exact List.mem_cons_self) _ hwritten

lemma offset_le_advance (h : c.Fits src) : c.offset ≤ c.advance.offset :=
  Nat.le_trans h.token_le.1 h.token_le.2.1

/-- Behind a token that was taken reading goes on at a later place. -/
lemma offset_lt_advance (h : c.Fits src) (hc : c.ahead ≠ []) : c.offset < c.advance.offset := by
  have hahead := h.ahead
  cases ha : c.ahead with
  | nil => exact absurd ha hc
  | cons t ts =>
    have hpeek : c.peek 0 = t := by simp [peek, ha]
    rw [ha] at hahead
    have hafter := h.advance.reached_le_offset
    rw [advance_of_ahead ha] at hafter ⊢
    rw [offset, hpeek]
    exact Nat.lt_of_lt_of_le hahead.2.1 hafter

/-- Reading never goes back. -/
lemma backOffset_le (h : c.Fits src) (hr : Reads c c') : c.backOffset ≤ c'.backOffset := by
  induction hr with
  | refl => exact Nat.le_refl _
  | @advance c' hr ih =>
    refine Nat.le_trans ih ?_
    have hc' := h.later hr
    cases ha : c'.ahead with
    | nil => exact Nat.le_of_eq (by rw [advance_of_end ha])
    | cons t ts =>
      have hpeek : c'.peek 0 = t := by simp [peek, ha]
      have hle := Nat.le_trans hc'.backOffset_le_offset hc'.token_le.1
      rw [hpeek] at hle
      rwa [advance_of_ahead ha]
  | complain d _ ih => exact ih

lemma offset_le (h : c.Fits src) (hr : Reads c c') : c.offset ≤ c'.offset := by
  induction hr with
  | refl => exact Nat.le_refl _
  | advance hr ih => exact Nat.le_trans ih (h.later hr).offset_le_advance
  | complain d _ ih => exact ih

/-- Behind a token reading goes on at a later place. -/
lemma offset_lt (h : c.Fits src) (hr : Reads c c') (ht : Takes c c') : c.offset < c'.offset := by
  induction hr with
  | refl => exact absurd ht (Nat.lt_irrefl _)
  | @advance c' hr ih =>
    by_cases hnil : c'.ahead = []
    · rw [advance_of_end hnil] at ht ⊢
      exact ih ht
    · exact Nat.lt_of_le_of_lt (h.offset_le hr) ((h.later hr).offset_lt_advance hnil)
  | complain d _ ih => exact ih ht

end Fits

end Cursor

/-! ### Nodes between two cursors -/

open Cursor

/-- Nodes are read between two cursors: they lie in the text between the places where the cursors stand,
one behind the other. -/
structure PlacedAll (c : Cursor) (ns : List Node) (c' : Cursor) : Prop where
  reads : Reads c c'
  laid : ∀ src, c.Fits src → (∀ n ∈ ns, n.Laid src) ∧ Node.InOrder c.offset ns c'.offset
  ends : ∀ src, c.Fits src → ∀ n ∈ ns, n.EndsBy c'.backOffset

/-- All places in a node at which code is put lie behind the one where the cursor stands. -/
def OpensLater (c : Cursor) (n : Node) : Prop := ∀ src, c.Fits src → n.OpensBehind c.offset

/-- A node is read between two cursors. -/
abbrev Placed (c : Cursor) (n : Node) (c' : Cursor) : Prop := PlacedAll c [n] c'

variable {c c₁ c' : Cursor} {n : Node} {ns ms : List Node}

lemma Cursor.Reads.placedAll (h : Reads c c') : PlacedAll c [] c' :=
  ⟨h, fun _ hc => ⟨by simp, hc.offset_le h⟩, by simp⟩

namespace PlacedAll

lemma le (h : PlacedAll c ns c') : c'.ahead.length ≤ c.ahead.length := h.reads.le

lemma trans (h : PlacedAll c ns c₁) (h' : PlacedAll c₁ ms c') : PlacedAll c (ns ++ ms) c' := by
  refine ⟨h.reads.trans h'.reads, fun src hc => ?_, fun src hc n hn => ?_⟩
  · obtain ⟨hns, hin⟩ := h.laid src hc
    obtain ⟨hms, hin'⟩ := h'.laid src (hc.later h.reads)
    refine ⟨fun n hn => ?_, hin.append hin'⟩
    rcases List.mem_append.mp hn with hn | hn
    · exact hns n hn
    · exact hms n hn
  · have hc₁ := hc.later h.reads
    rcases List.mem_append.mp hn with hn | hn
    · exact (h.ends src hc n hn).of_le (hc₁.backOffset_le h'.reads)
    · exact h'.ends src hc₁ n hn

lemma cons (h : Placed c n c₁) (h' : PlacedAll c₁ ms c') : PlacedAll c (n :: ms) c' := h.trans h'

/-- What is read behind some nodes without a node of its own. -/
lemma before (h : PlacedAll c ns c₁) (h' : Reads c₁ c') : PlacedAll c ns c' := by
  simpa using h.trans h'.placedAll

/-- What is read before some nodes without a node of its own. -/
lemma behind (h : Reads c c₁) (h' : PlacedAll c₁ ns c') : PlacedAll c ns c' := h.placedAll.trans h'

lemma map_inRole (h : PlacedAll c ns c') (role : Role) :
    PlacedAll c (ns.map (·.inRole role)) c' := by
  refine ⟨h.reads, fun src hc => ?_, fun src hc => ?_⟩
  · obtain ⟨hns, hin⟩ := h.laid src hc
    refine ⟨fun n hn => ?_, hin.map_inRole role⟩
    obtain ⟨m, hm, rfl⟩ := List.mem_map.mp hn
    exact (hns m hm).inRole role
  · exact List.forall_mem_map.mpr fun n hn => (h.ends src hc n hn).inRole role

lemma take (h : PlacedAll c ns c') (k : Nat) : PlacedAll c (ns.take k) c' := by
  refine ⟨h.reads, fun src hc => ?_, fun src hc n hn => h.ends src hc n (List.mem_of_mem_take hn)⟩
  obtain ⟨hns, hin⟩ := h.laid src hc
  exact ⟨fun n hn => hns n (List.mem_of_mem_take hn), hin.take k⟩

/-- A node made of what was read, up to some place that reading has reached: the end of the last token,
its own start if it took none, or the place of a branch that it waits for. -/
lemma nodeTo (h : PlacedAll c ns c') {kind : Kind} {stop : Nat} (hkind : kind.isComposed = true)
    (hstop : ∀ src, c.Fits src →
      c.offset ≤ stop ∧ stop ≤ c'.offset ∧ Text.isBoundary stop src = true)
    (hback : c'.backOffset ≤ stop)
    (hends : Node.EndsBy c'.backOffset ⟨kind, .unplaced, ⟨c.offset, stop⟩, none, ns⟩) :
    Placed c ⟨kind, .unplaced, ⟨c.offset, stop⟩, none, ns⟩ c' := by
  refine ⟨h.reads, fun src hc => ?_, fun src hc n hn => ?_⟩
  · obtain ⟨hns, hin⟩ := h.laid src hc
    obtain ⟨hle, hreach, hboundary⟩ := hstop src hc
    refine ⟨fun n hn => ?_, Nat.le_refl _, hle, hreach⟩
    obtain rfl := List.mem_singleton.mp hn
    exact .of_children hns hin (fun m hm => (h.ends src hc m hm).of_le hback) hle hc.offset_boundary
      hboundary rfl hkind
  · obtain rfl := List.mem_singleton.mp hn
    exact hends

lemma spanSince_stop (hr : Reads c c') (src : List Char) (hc : c.Fits src) :
    c.offset ≤ (c'.spanSince c.offset).stop ∧ (c'.spanSince c.offset).stop ≤ c'.offset
      ∧ Text.isBoundary (c'.spanSince c.offset).stop src = true := by
  have hc' := hc.later hr
  have hle := hc.offset_le hr
  have hback := hc'.backOffset_le_offset
  refine ⟨Nat.le_max_right _ _, Nat.max_le.mpr ⟨hback, hle⟩, ?_⟩
  rcases Nat.le_total c'.backOffset c.offset with hm | hm
  · rw [spanSince, Nat.max_eq_right hm]
    exact hc.offset_boundary
  · rw [spanSince, Nat.max_eq_left hm]
    exact hc'.backOffset_boundary

/-- The node that covers all that was read. -/
lemma node (h : PlacedAll c ns c') {kind : Kind} (hkind : kind.isComposed = true) :
    Placed c ⟨kind, .unplaced, c'.spanSince c.offset, none, ns⟩ c' := by
  refine h.nodeTo hkind (spanSince_stop h.reads) (Nat.le_max_left _ _) ?_
  rcases Nat.le_total c'.backOffset c.offset with hm | hm
  · exact .inr (.inl (Nat.max_eq_right hm))
  · exact .inl (Nat.max_le.mpr ⟨Nat.le_refl _, hm⟩)

/-- A conditional statement that reaches as far as the place of the branch that it waits for. -/
lemma nodeReaching (h : PlacedAll c ns c') (hn : ns.getLast? = some n) (hmissing : n.kind = .missing) :
    Placed c ⟨.ifStatement, .unplaced, ⟨c.offset, max (c'.spanSince c.offset).stop n.span.start⟩, none, ns⟩
      c' := by
  have hback : c'.backOffset ≤ max (c'.spanSince c.offset).stop n.span.start :=
    Nat.le_trans (Nat.le_max_left _ _) (Nat.le_max_left _ _)
  refine h.nodeTo (by decide) (fun src hc => ?_) hback (.inr (.inr ⟨rfl, n, hn, hmissing⟩))
  have hn := List.mem_of_getLast? hn
  obtain ⟨hns, hin⟩ := h.laid src hc
  obtain ⟨hle, hreach, hboundary⟩ := spanSince_stop h.reads src hc
  have hstart : n.span.start ≤ c'.offset := Nat.le_trans (hns n hn).own.le (hin.stop_le hn)
  refine ⟨Nat.le_trans hle (Nat.le_max_left _ _), Nat.max_le.mpr ⟨hreach, hstart⟩, ?_⟩
  rcases Nat.le_total (c'.spanSince c.offset).stop n.span.start with hm | hm
  · rw [Nat.max_eq_right hm]
    exact (hns n hn).own.start
  · rw [Nat.max_eq_left hm]
    exact hboundary

/-- Of what is read behind a token every place at which code is put lies behind that token. -/
lemma opensLater (h : PlacedAll c₁ ns c') (hr : Reads c c₁) (ht : Takes c c₁) :
    ∀ n ∈ ns, OpensLater c n := by
  intro n hn src hc
  have hlt := hc.offset_lt hr ht
  obtain ⟨hns, hin⟩ := h.laid src (hc.later hr)
  exact (hns n hn).opensBehind (Nat.lt_of_lt_of_le hlt (hin.start_le hn))

end PlacedAll

lemma OpensLater.of_children (hn : ¬ n.IsOpening) (h : ∀ m ∈ n.children, OpensLater c m) :
    OpensLater c n :=
  fun src hc => .of_children hn fun m hm => h m hm src hc

lemma OpensLater.inRole (h : OpensLater c n) (role : Role) : OpensLater c (n.inRole role) :=
  fun src hc => (h src hc).inRole role

namespace Placed

lemma inRole (h : Placed c n c') (role : Role) : Placed c (n.inRole role) c' :=
  PlacedAll.map_inRole h role

lemma withText (h : Placed c n c') (text : String) (hkind : n.kind.isLeaf = false) :
    Placed c (n.withText text) c' := by
  refine ⟨h.reads, fun src hc => ?_, fun src hc m hm => ?_⟩
  · obtain ⟨hns, hin⟩ := h.laid src hc
    refine ⟨fun m hm => ?_, hin⟩
    obtain rfl := List.mem_singleton.mp hm
    exact (hns n (List.mem_singleton_self n)).withText text hkind
  · obtain rfl := List.mem_singleton.mp hm
    exact (h.ends src hc n (List.mem_singleton_self n)).withText text

/-- A part that is missing where reading stands. -/
lemma missing (h : Reads c c') (role : Role) : Placed c (.missing role c.offset) c' := by
  refine ⟨h, fun src hc => ⟨fun m hm => ?_, Nat.le_refl _, Nat.le_refl _, hc.offset_le h⟩,
    fun src hc m hm => ?_⟩
  · obtain rfl := List.mem_singleton.mp hm
    exact .missing hc.offset_boundary role
  · obtain rfl := List.mem_singleton.mp hm
    exact .inr (.inl rfl)

/-- The next token as a leaf. -/
lemma leaf {kind : Kind} {role : Role} (hk : Parser.isWord (c.kindAt 0) = true)
    (hkind : kind ≠ .missing) :
    Placed c ⟨kind, role, (c.peek 0).span, some (Parser.leafText (c.kindAt 0)), []⟩ c.advance := by
  refine ⟨.one c, fun src hc => ?_, fun src hc m hm => ?_⟩
  · obtain ⟨hle, hstop, hboundary⟩ := hc.token_le
    refine ⟨fun m hm => ?_, Nat.le_refl _, hle, hstop⟩
    obtain rfl := List.mem_singleton.mp hm
    exact .mk ⟨hle, hc.offset_boundary, hboundary, ⟨c.offset, Nat.le_refl _⟩, by simp,
      fun h => absurd h hkind, fun _ => ⟨_, rfl, hc.spelled_peek hk⟩⟩ (by simp)
  · obtain rfl := List.mem_singleton.mp hm
    have hne : c.kindAt 0 ≠ .eof := fun heof => by simp [heof, Parser.isWord] at hk
    exact .inl (Nat.le_of_eq (backOffset_advance hne).symm)

/-- A node without parts that covers what lies between two tokens. -/
lemma between {kind : Kind} {role : Role} (hk : c.kindAt 0 ≠ .eof) (hk₁ : c.advance.kindAt 0 ≠ .eof)
    (hkind : kind.isComposed = true) :
    Placed c ⟨kind, role, ⟨c.advance.backOffset, c.advance.advance.backOffset⟩, none, []⟩
      c.advance.advance := by
  refine ⟨(Reads.one c).advance, fun src hc => ?_, fun src hc m hm => ?_⟩
  · have hc₁ := hc.advance
    have hstart : c.offset ≤ c.advance.backOffset := by
      rw [backOffset_advance hk]
      exact hc.token_le.1
    have hle : c.advance.backOffset ≤ c.advance.advance.backOffset := by
      rw [backOffset_advance hk₁]
      exact Nat.le_trans hc₁.backOffset_le_offset hc₁.token_le.1
    refine ⟨fun m hm => ?_, hstart, hle, hc₁.advance.backOffset_le_offset⟩
    obtain rfl := List.mem_singleton.mp hm
    exact .of_children (by simp) (Nat.le_refl _ : Node.InOrder _ [] _) (by simp) hle
      hc₁.backOffset_boundary hc₁.advance.backOffset_boundary rfl hkind
  · obtain rfl := List.mem_singleton.mp hm
    exact .inl (Nat.le_refl _)

end Placed

/-- A node is read whose first parts were read before, from the cursor `c₀` on. -/
structure Extended (c₀ c : Cursor) (n : Node) (c' : Cursor) : Prop where
  placed : Placed c₀ n c'
  reads : Reads c c'

namespace Extended

variable {c₀ : Cursor}

lemma le (h : Extended c₀ c n c') : c'.ahead.length ≤ c.ahead.length := h.reads.le

lemma behind (hr : Reads c c₁) (h : Extended c₀ c₁ n c') : Extended c₀ c n c' :=
  ⟨h.placed, hr.trans h.reads⟩

end Extended

/-! ### Names and lists of nodes -/

namespace Parser

/-- Items with separators between them lie one behind the other. -/
lemma sepBy1_placed {sep : Punct} {item : Parser Node}
    (hitem : ∀ c', Reads c c' → item.After c' (Placed c')) :
    (sepBy1 sep item).After c (PlacedAll c) := by
  refine after_sepBy1 (Reads.refl c).placedAll (fun _ c' h => h.before (.one c')) fun ns c' h => ?_
  exact (hitem c' h.reads).imp fun n c'' hn => ⟨h.trans hn, hn.le⟩

lemma sepUntil_placed {stop : Parser Bool} {s : Cursor → Bool} {sep : Punct} {item : Parser Node}
    (hstop : ∀ c R, stop.After c R ↔ R (s c) c)
    (hitem : ∀ c', Reads c c' → s c' = false → item.After c' (Placed c')) :
    (sepUntil stop sep item).After c (PlacedAll c) := by
  refine after_sepUntil hstop (Reads.refl c).placedAll (fun _ c' h => h.before (.one c'))
    fun ns c' hs h => ?_
  exact (hitem c' h.reads hs).imp fun n c'' hn => ⟨h.trans hn, hn.le⟩

/-- What holds of each item holds of all that lie one behind the other. -/
lemma manyUntil_all {K : Node → Prop} {stop : Parser Bool} {s : Cursor → Bool}
    {item : Parser (Option Node)} (hstop : ∀ c R, stop.After c R ↔ R (s c) c)
    (hitem : ∀ c', Reads c c' → s c' = false → item.After c' fun o c'' =>
      PlacedAll c' o.toList c'' ∧ Takes c' c'' ∧ ∀ n ∈ o.toList, K n) :
    (manyUntil stop item).After c fun ns c' => PlacedAll c ns c' ∧ ∀ n ∈ ns, K n := by
  refine after_manyUntil hstop ⟨(Reads.refl c).placedAll, by simp⟩ fun ns c' hs ⟨h, hK⟩ => ?_
  refine (hitem c' h.reads hs).imp fun o c'' ⟨ho, htakes, hKo⟩ => ⟨⟨h.trans ho, ?_⟩, htakes⟩
  intro n hn
  exact (List.mem_append.mp hn).elim (hK n) (hKo n)

lemma manyUntil_placed {stop : Parser Bool} {s : Cursor → Bool} {item : Parser (Option Node)}
    (hstop : ∀ c R, stop.After c R ↔ R (s c) c)
    (hitem : ∀ c', Reads c c' → s c' = false → item.After c' fun o c'' =>
      PlacedAll c' o.toList c'' ∧ Takes c' c'') :
    (manyUntil stop item).After c (PlacedAll c) := by
  refine (manyUntil_all (K := fun _ => True) hstop fun c' h hs => ?_).imp fun _ _ h => h.1
  exact (hitem c' h hs).imp fun o c'' ⟨ho, htakes⟩ => ⟨ho, htakes, fun _ _ => trivial⟩

/-- Parts that need not be there. -/
lemma itemsIf_placed {condition : Parser Bool} {items : Parser (List Node)}
    (hcondition : condition.After c fun _ c' => Reads c c')
    (hitems : ∀ c', Reads c c' → items.After c' (PlacedAll c')) :
    (itemsIf condition items).After c (PlacedAll c) := by
  rw [after_itemsIf]
  refine hcondition.imp fun b c' hr => ?_
  split
  · exact (hitems c' hr).imp fun _ _ h => .behind hr h
  · exact hr.placedAll

lemma itemIf_placed {condition : Parser Bool} {item : Parser Node}
    (hcondition : condition.After c fun _ c' => Reads c c')
    (hitem : ∀ c', Reads c c' → item.After c' (Placed c')) :
    (itemIf condition item).After c (PlacedAll c) :=
  itemsIf_placed hcondition fun c' hr => hitem c' hr

/-- A node that is extended as long as a step takes a token, always from one place on. -/
lemma chain_placed {step : Node → Parser (Option Node)} {c₀ : Cursor} (h : Placed c₀ n c)
    (hstep : ∀ n c, Placed c₀ n c → (step n).After c fun o c' =>
      (∀ m, o = some m → Placed c₀ m c' ∧ Takes c c') ∧ (o = none → Reads c c')) :
    (chain step n).After c fun m c' => Placed c₀ m c' ∧ c'.ahead.length ≤ c.ahead.length := by
  refine after_chain h fun m c' hm => (hstep m c' hm).imp fun o c'' ⟨hsome, hnone⟩ => ⟨hsome, ?_⟩
  intro ho
  have hreads := hnone ho
  exact ⟨hm.before hreads, hreads.le⟩

lemma leaf_placed {kind : Kind} {role : Role} (hk : isWord (c.kindAt 0) = true)
    (hkind : kind ≠ .missing) : (Parser.leaf kind role).After c (Placed c) := by
  rw [after_leaf]
  exact .leaf hk hkind

lemma missing_placed {role : Role} {what : String} :
    (Parser.missing role what).After c (Placed c) := by
  rw [after_missing]
  exact .missing (.complained c _) role

lemma ident_placed {role : Role} : (ident role).After c (Placed c) := by
  simp only [ident, after_bind, after_peek]
  split
  · next hk => exact leaf_placed (by rw [kindAt, hk]; rfl) (by decide)
  · exact missing_placed

/-- A simple name takes a token where one comes. -/
lemma ident_takes {role : Role} :
    (ident role).After c fun _ c' => (c.kindAt 0).identName?.isSome = true → Takes c c' := by
  simp only [ident, after_bind, after_peek]
  split
  · next name hk => exact fun _ => takes_advance (by simp [kindAt, hk])
  · next hk =>
    intro h
    cases hkind : (c.peek 0).kind with
    | ident name => exact absurd hkind (hk name)
    | _ => simp [kindAt, hkind, TokenKind.identName?] at h

/-- The kinds of nodes that stand before the types of a text. -/
def inHeader : Kind → Bool
  | .packageDeclaration | .importDeclaration | .modifier | .simpleName | .qualifiedName
  | .missing => true
  | _ => false

/-- The node is one of those that stand before the types of a text, with all below it. -/
abbrev IsHeader (n : Node) : Prop := n.Everywhere (inHeader ·.kind = true)

lemma ident_isHeader {role : Role} : (ident role).After c fun n _ => IsHeader n := by
  simp only [ident, after_bind, after_peek]
  split
  · rw [after_leaf]
    exact .mk rfl (by simp)
  · rw [after_missing]
    exact .mk rfl (by simp [Node.missing])

lemma IsHeader.inRole (h : IsHeader n) (role : Role) : IsHeader (n.inRole role) := .mk h.own h.inner

lemma qualifiedName_placed {role : Role} :
    (qualifiedName role).After c fun n c' => Placed c n c' ∧ IsHeader n := by
  simp only [qualifiedName, after_bind, after_start, after_pure]
  refine (After.and ident_placed ident_isHeader).imp fun n c₁ hn => ?_
  refine After.imp (after_chain (I := fun n c' => Placed c n c' ∧ IsHeader n)
    (J := fun n c' => Placed c n c' ∧ IsHeader n) hn fun m c' ⟨hm, hheader⟩ => ?_)
    fun _ _ ⟨h, _⟩ => ⟨h.1.inRole role, h.2.inRole role⟩
  simp only [qualifiedName.step, after_bind, after_atPunct, after_atIdent, after_pure, after_ite,
    after_bump, after_node]
  split
  · next hk =>
    have hlt : Takes c' c'.advance := takes_advance (by simp_all)
    refine (After.and ident_placed ident_isHeader).imp fun last c'' ⟨hlast, hlast'⟩ => ?_
    have hplaced := ((hm.inRole .qualifier).before (.one c')).cons hlast
    refine ⟨fun _ h => ?_, nofun⟩
    cases h
    refine ⟨⟨hplaced.node rfl, .mk rfl fun k hk => ?_⟩, Nat.lt_of_le_of_lt hlast.le hlt⟩
    rcases List.mem_cons.mp hk with rfl | hk
    · exact hheader.inRole .qualifier
    · obtain rfl := List.mem_singleton.mp hk
      exact hlast'
  · exact ⟨nofun, fun _ => ⟨⟨hm, hheader⟩, Nat.le_refl _⟩⟩

end Parser

end Shorthand
