import Shorthand.Candidate.Overload
import Shorthand.Model.Scope

/-!
Which candidates are offered.

Of candidates that look the same the first stays. Calls that do not give what is expected are left out,
and the overloads of one name come down to the best one, in the place of the first.

* `withoutRepetition` keeps the first of each display, `collapse` takes the overloads together and
  `Ranking.offered` does all of it.
-/

namespace Shorthand

/-- The fragments that look different from all earlier ones. -/
def withoutRepetition (fs : List Fragment) : List Fragment :=
  fs.foldl (fun kept f => if kept.any f.looksLike then kept else kept ++ [f]) []

/-- The call that a fragment is. -/
def Fragment.call? : Fragment → Option Call
  | call c => some c
  | _ => none

/-- The fragment is a call of the same target. -/
def Call.isOverloadOf (c : Call) (f : Fragment) : Bool := f.call?.any (·.target == c.target)

/-- The calls of the same target among some fragments. -/
def Call.overloadsIn (c : Call) (fs : List Fragment) : List Call :=
  (fs.filter c.isOverloadOf).filterMap (·.call?)

/-- The fragments that are no calls of the same target. -/
def Call.othersIn (c : Call) (fs : List Fragment) : List Fragment :=
  fs.filter (!c.isOverloadOf ·)

theorem Call.length_othersIn_le (c : Call) (fs : List Fragment) :
    (c.othersIn fs).length ≤ fs.length := List.length_filter_le _ fs

/-- The fragments with the calls of each target replaced by one of them, in the place of the first. -/
def collapse (best : Overloads → Call) : List Fragment → List Fragment
  | [] => []
  | .call c :: fs => .call (best ⟨c, c.overloadsIn fs⟩) :: collapse best (c.othersIn fs)
  | f :: fs => f :: collapse best fs
termination_by fs => fs.length
decreasing_by
  · exact Nat.lt_succ_of_le (c.length_othersIn_le fs)
  · exact Nat.lt_succ_self _

/-- What candidates are ranked by. -/
structure Ranking where
  index : Index
  caret : Nat
  expected : Option Ty
  settings : Settings

namespace Ranking

variable (r : Ranking)

/-- The type of what a call gives. -/
def resultOf (c : Call) : Ty :=
  match c.callee with
  | .constructor t => .named t.name
  | .method _ => c.method.ret

/-- The call gives a value that is expected, or nothing is expected. -/
def givesExpected (c : Call) : Bool :=
  r.expected.all fun t => resultOf c != .void && r.index.isAssignable (resultOf c) t

/-- The fragment is no call, or one that gives what is expected. -/
def admits (f : Fragment) : Bool := f.call?.all r.givesExpected

/-- The best one of some overloads, with arguments from the values in scope. -/
def bestOverload (scope : List Element) (o : Overloads) : Call :=
  let choose := argumentFor r.index r.settings.assignablePenalty scope
  (o.withArguments choose).best r.settings.comparison

/-- The candidates that are offered. -/
def offered (candidates : List Fragment) : List Fragment :=
  let scope := r.index.elementsInScope r.caret
  collapse (r.bestOverload scope) ((withoutRepetition candidates).filter r.admits)

end Ranking

end Shorthand
