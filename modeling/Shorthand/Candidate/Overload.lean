import Shorthand.Fragment.Basic
import Shorthand.Model.Assignable
import Shorthand.Settings
import Shorthand.Text.Distance

/-!
Choosing arguments and overloads.

An argument is the value in scope that fits the parameter and whose name is closest to that of the
parameter, or a literal where none fits. Of several overloads with their arguments the one that is
chosen has all of them in scope, as few as possible, or else the greatest share of them.

* `Overloads.best` is the choice; `argumentFor` fills in one argument.
-/

namespace Shorthand

/-! ### The least of some things -/

/-- The first of the things with the least score. -/
def leastBy? {α : Type} (score : α → Nat) (xs : List α) : Option α :=
  xs.foldl better none
where
  /-- Keeps the better one of two, the earlier one of equals. -/
  better : Option α → α → Option α
    | none, x => some x
    | some best, x => some (if score x < score best then x else best)

/-! ### Arguments -/

/-- The literal that stands in for a value of a type. -/
def defaultLiteral : Ty → String
  | .primitive .boolean => "false"
  | .primitive .byte | .primitive .short | .primitive .char | .primitive .int => "0"
  | .primitive .long => "0L"
  | .primitive .float => "0.0f"
  | .primitive .double => "0.0d"
  | _ => "null"

/-- How far off an element is as the argument for a parameter: how far apart the names are, and the
penalty unless the types are the same. -/
def argumentScore (penalty : Nat) (p : ParamInfo) (e : Element) : Nat :=
  let apart := Text.editDistance e.name.toList p.name.toList
  if e.ty.sameErasure p.ty then apart else apart + penalty

/-- The elements that can be given for a parameter. -/
def fittingElements (ix : Index) (scope : List Element) (p : ParamInfo) : List Element :=
  scope.filter fun e => ix.isAssignable e.ty p.ty

/-- The argument for a parameter. -/
def argumentFor (ix : Index) (penalty : Nat) (scope : List Element) (p : ParamInfo) : Argument :=
  match leastBy? (argumentScore penalty p) (fittingElements ix scope p) with
  | some e => .symbol e.name
  | none => .default (defaultLiteral p.ty)

/-- The call with an argument for each parameter. -/
def Call.withArguments (c : Call) (choose : ParamInfo → Argument) : Call :=
  { c with args := c.method.params.map choose }

/-! ### Shares of arguments -/

namespace Call

/-- The number that the number of arguments in scope is compared to. -/
def whole (c : Call) : Nat := max c.arity 1

/-- The second call has a smaller share of its arguments in scope than the first. -/
def beats (comparison : ShareComparison) (a b : Call) : Bool :=
  match comparison with
  | .exact => b.symbolCount * a.whole < a.symbolCount * b.whole
  | .truncated => b.symbolCount / b.whole < a.symbolCount / a.whole

end Call

/-! ### Overloads -/

/-- Calls of one name, of which there is one at least. -/
structure Overloads where
  first : Call
  others : List Call

namespace Overloads

/-- All the calls. -/
def toList (o : Overloads) : List Call := o.first :: o.others

/-- The calls with arguments. -/
def withArguments (o : Overloads) (choose : ParamInfo → Argument) : Overloads :=
  ⟨o.first.withArguments choose, o.others.map (·.withArguments choose)⟩

/-- The calls by the number of their parameters, the greatest first; equal ones keep their order. -/
def widestFirst (o : Overloads) : List Call := o.toList.mergeSort fun a b => b.arity ≤ a.arity

/-- The first of the calls that no other one beats. -/
def unbeaten (comparison : ShareComparison) (first : Call) (others : List Call) : Call :=
  others.foldl (fun best c => if c.beats comparison best then c else best) first

/-- The last of the complete calls, or else the first of those that no other one beats. -/
def choose (comparison : ShareComparison) (first : Call) (others : List Call) : Call :=
  (((first :: others).filter (·.isComplete)).getLast?).getD (unbeaten comparison first others)

/-- The best one of the calls that have their arguments. -/
def best (o : Overloads) (comparison : ShareComparison) : Call :=
  match o.widestFirst with
  | first :: others => choose comparison first others
  | [] => o.first

end Overloads

end Shorthand
