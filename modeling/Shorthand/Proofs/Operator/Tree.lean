import Mathlib.Tactic.Common
import Shorthand.Fragment.Code

/-!
Expressions of names and operators.

An `OperatorChain` is what is written: names with operators between them. An `OperatorTree` is how it is
meant, and `OperatorTree.Binds` says that the tree respects the strengths of its operators, where those
of one strength associate to the left.

* `OperatorTree.le_strength`: no operator of a tree binds less strongly than the one at its top.
* `OperatorTree.eq_of_inOrder`: a chain is meant in one way only. The operator at the top is the last one
  of those that bind the least.
-/

namespace Shorthand

/-! ### Operators -/

/-- An operator between two operands. -/
inductive InfixOperator where
  | orOr | andAnd | pipe | caret | amp | eqEq | ne | lt | gt | le | ge | shl | shr | ushr | plus | minus
  | star | slash | percent
deriving DecidableEq, Repr

namespace InfixOperator

/-- The text of an operator. -/
def spelling : InfixOperator → String
  | orOr => "||" | andAnd => "&&" | pipe => "|" | caret => "^" | amp => "&" | eqEq => "==" | ne => "!="
  | lt => "<" | gt => ">" | le => "<=" | ge => ">=" | shl => "<<" | shr => ">>" | ushr => ">>>"
  | plus => "+" | minus => "-" | star => "*" | slash => "/" | percent => "%"

/-- How strongly an operator binds. -/
def strength : InfixOperator → Nat
  | orOr => 1
  | andAnd => 2
  | pipe => 3
  | caret => 4
  | amp => 5
  | eqEq | ne => 6
  | lt | gt | le | ge => 7
  | shl | shr | ushr => 8
  | plus | minus => 9
  | star | slash | percent => 10

lemma one_le_strength (op : InfixOperator) : 1 ≤ op.strength := by
  cases op <;> decide

end InfixOperator

/-- An operator with the name behind it. -/
abbrev OperatorLink := InfixOperator × String

/-- Names with operators between them. -/
@[ext]
structure OperatorChain where
  /-- The name in front of all operators. -/
  first : String
  /-- The operators, each with the name behind it. -/
  links : List OperatorLink
deriving DecidableEq, Repr

namespace OperatorChain

/-- One chain behind another one, with an operator between them. -/
def join (before : OperatorChain) (op : InfixOperator) (behind : OperatorChain) : OperatorChain :=
  ⟨before.first, before.links ++ (op, behind.first) :: behind.links⟩

/-- The names of the chain. -/
def names (chain : OperatorChain) : List String := chain.first :: chain.links.map Prod.snd

/-- The words of the chain: its names and the operators between them. -/
def words (chain : OperatorChain) : List String :=
  chain.first :: chain.links.flatMap fun (op, name) => [op.spelling, name]

/-- The text of the chain, with single spaces between its words. -/
def text (chain : OperatorChain) : String := " ".intercalate chain.words

end OperatorChain

/-! ### Trees -/

/-- An expression of names and operators. -/
inductive OperatorTree where
  | operand (name : String)
  | operation (left : OperatorTree) (op : InfixOperator) (right : OperatorTree)
deriving DecidableEq, Repr

namespace OperatorTree

/-- The names and operators of the tree in order. -/
def inOrder : OperatorTree → OperatorChain
  | operand name => ⟨name, []⟩
  | operation left op right => left.inOrder.join op right.inOrder

/-- The operator at the top, if there is one, binds at least so strongly. -/
def AtLeast (least : Nat) : OperatorTree → Prop
  | operand _ => True
  | operation _ op _ => least ≤ op.strength

/-- Operators at the top of left operands bind at least as strongly as the operator behind them, and
those at the top of right operands more strongly than the operator before them. -/
def Binds : OperatorTree → Prop
  | operand _ => True
  | operation left op right =>
    left.Binds ∧ right.Binds ∧ left.AtLeast op.strength ∧ right.AtLeast (op.strength + 1)

/-- The expression as a syntax tree. -/
def toNode : OperatorTree → Node
  | operand name => .ofWord name
  | operation left op right =>
    ((Node.detached .infixExpression).withText op.spelling).withChildren
      [left.toNode.inRole .left, right.toNode.inRole .right]

variable {t t' : OperatorTree} {least least' : Nat}

lemma AtLeast.of_le (h : t.AtLeast least) (hle : least' ≤ least) : t.AtLeast least' := by
  cases t with
  | operand name => trivial
  | operation left op right => exact Nat.le_trans hle h

/-- No operator of a tree binds less strongly than the one at its top. -/
lemma le_strength (hbinds : t.Binds) (h : t.AtLeast least) :
    ∀ link ∈ t.inOrder.links, least ≤ link.1.strength := by
  induction t generalizing least with
  | operand name => nofun
  | operation left op right ihleft ihright =>
    obtain ⟨hleft, hright, hatLeft, hatRight⟩ := hbinds
    have hop : least ≤ op.strength := h
    refine List.forall_mem_append.mpr ⟨?_, List.forall_mem_cons.mpr ⟨hop, ?_⟩⟩
    · exact ihleft hleft (hatLeft.of_le hop)
    · exact ihright hright (hatRight.of_le (Nat.le_succ_of_le hop))

/-- Where a chain is meant in two ways, the left operand of the one does not end inside that of the
other. -/
private lemma not_inside {left right left' right' : OperatorTree} {op op' : InfixOperator}
    {more : List OperatorLink} (h : (operation left op right).Binds)
    (h' : (operation left' op' right').Binds)
    (hleft : left'.inOrder.links = left.inOrder.links ++ (op, right.inOrder.first) :: more)
    (hright : right.inOrder.links = more ++ (op', right'.inOrder.first) :: right'.inOrder.links) :
    False := by
  obtain ⟨-, hr, -, hatRight⟩ := h
  obtain ⟨hl', -, hatLeft', -⟩ := h'
  -- Each of the two operators stands in an operand of the other one.
  have hle : op'.strength ≤ op.strength :=
    le_strength hl' hatLeft' (op, right.inOrder.first) (by simp [hleft])
  have hlt : op.strength + 1 ≤ op'.strength :=
    le_strength hr hatRight (op', right'.inOrder.first) (by simp [hright])
  exact Nat.not_succ_le_self _ (Nat.le_trans hlt hle)

/-- Where a chain is meant in two ways, their left operands end at the same place. -/
private lemma links_left_eq {left right left' right' : OperatorTree} {op op' : InfixOperator}
    (h : (operation left op right).Binds) (h' : (operation left' op' right').Binds)
    (hlinks : left.inOrder.links ++ (op, right.inOrder.first) :: right.inOrder.links
      = left'.inOrder.links ++ (op', right'.inOrder.first) :: right'.inOrder.links) :
    left.inOrder.links = left'.inOrder.links := by
  rcases List.append_eq_append_iff.mp hlinks with ⟨more, hleft, hrest⟩ | ⟨more, hleft, hrest⟩
  · cases more with
    | nil => simpa using hleft.symm
    | cons link more =>
      obtain ⟨rfl, hright⟩ := List.cons.inj hrest
      exact (not_inside h h' hleft hright).elim
  · cases more with
    | nil => simpa using hleft
    | cons link more =>
      obtain ⟨rfl, hright⟩ := List.cons.inj hrest
      exact (not_inside h' h hleft hright).elim

/-- A chain of names and operators is meant in one way only. -/
theorem eq_of_inOrder (h : t.Binds) (h' : t'.Binds) (hin : t.inOrder = t'.inOrder) : t = t' := by
  induction t generalizing t' with
  | operand name =>
    cases t' with
    | operand name' => rw [(OperatorChain.mk.inj hin).1]
    | operation left' op' right' => exact absurd (OperatorChain.mk.inj hin).2 (by simp)
  | operation left op right ihleft ihright =>
    cases t' with
    | operand name' => exact absurd (OperatorChain.mk.inj hin).2 (by simp)
    | operation left' op' right' =>
      obtain ⟨hfirst, hlinks⟩ := OperatorChain.mk.inj hin
      have hleft := links_left_eq h h' hlinks
      rw [hleft] at hlinks
      obtain ⟨hlink, hright⟩ := List.cons.inj (List.append_cancel_left hlinks)
      obtain ⟨rfl, hfirst'⟩ := Prod.mk.inj hlink
      rw [ihleft h.1 h'.1 (OperatorChain.ext hfirst hleft),
        ihright h.2.1 h'.2.1 (OperatorChain.ext hfirst' hright)]

end OperatorTree

end Shorthand
