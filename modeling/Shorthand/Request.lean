import Shorthand.Candidate.Collector
import Shorthand.Candidate.Rank
import Shorthand.Grammar.Parse
import Shorthand.Insertion.Basic

/-!
Expanding an abbreviation.

The user types an abbreviation at a caret; a `Request` is made when it has been taken out of the text
again. `Request.resolve` finds what it can stand for, and `Request.insert` puts one of these things into
the text. `expand` does all of it: of several possibilities the user picks one.
-/

namespace Shorthand

/-- Why a request cannot be dealt with. -/
inductive RequestError where
  /-- The index has not gone through its text. -/
  | unresolvedIndex
  | emptyAbbreviation
  /-- The caret is no boundary of a text of a length in bytes. -/
  | caretOutside (caret length : Nat)
  | edit (e : EditError)
deriving DecidableEq, Repr

namespace RequestError

/-- The words for an error. -/
def message : RequestError → String
  | unresolvedIndex => "semantic model queried before it was resolved"
  | emptyAbbreviation => "empty abbreviation"
  | caretOutside caret length =>
    s!"caret {caret} is outside the document (length {length})"
  | edit e => e.message

/-- An error of edits as one of a request. -/
def ofEdit {α : Type} : Except EditError α → Except RequestError α
  | .ok x => .ok x
  | .error e => .error (edit e)

end RequestError

/-- An abbreviation at a caret. -/
structure Request where
  /-- The text without the abbreviation. -/
  source : String
  parsed : ParseOutput
  caret : Nat
  abbreviation : String

/-- What an abbreviation can stand for. -/
inductive Resolution where
  | none
  | single (f : Fragment)
  /-- Several fragments in the order of their displays. -/
  | ambiguous (fs : List Fragment)
deriving DecidableEq, Repr

namespace Resolution

/-- The resolution with the given fragments. -/
def ofFragments : List Fragment → Resolution
  | [] => none
  | [f] => single f
  | fs => ambiguous (Fragment.inOrder fs)

/-- The fragments of a resolution. -/
def toList : Resolution → List Fragment
  | none => []
  | single f => [f]
  | ambiguous fs => fs

end Resolution

namespace Request

variable (r : Request)

/-- The request with the tree of its text. -/
def ofSource (source : String) (caret : Nat) (abbreviation : String) : Request :=
  ⟨source, parse source, caret, abbreviation⟩

/-- The tokens around the caret. -/
def surroundings : Surroundings := ⟨r.parsed.tokens, r.caret⟩

/-- The place of the caret. -/
def site : Site := Site.ofOffset r.parsed.tree r.surroundings

/-- The type that a value at the caret should have. -/
def expectedTy? (ix : Index) : Option Ty := r.site.expectedTy? r.surroundings ix

/-- What is asked for: the abbreviation itself, or the member part of it with the owners. -/
def query (ix : Index) : Query :=
  let expected := r.expectedTy? ix
  match splitOwner? r.abbreviation with
  | some (owner, member) => ⟨ix, r.caret, member, expected, ix.ownersAt r.caret owner⟩
  | none => ⟨ix, r.caret, r.abbreviation, expected, []⟩

/-- The collectors for the abbreviation. -/
def collectors : List Collector :=
  if (splitOwner? r.abbreviation).isSome then r.site.slot.memberCollectors
  else r.site.slot.collectors

/-- All that the abbreviation can stand for, in the order in which it was found. -/
def fragments (ix : Index) (settings : Settings) : List Fragment :=
  let q := r.query ix
  Ranking.offered ⟨ix, r.caret, q.expected, settings⟩ (q.candidates r.collectors settings.flags)

/-- The error of a caret that is no boundary of the text. -/
def caretError? : Option RequestError :=
  if Text.isBoundary r.caret r.source.toList then none
  else some (.caretOutside r.caret (Text.bytes r.source.toList))

/-- What speaks against looking at the request. -/
def error? (ix : Index) : Option RequestError :=
  if !ix.resolved then some .unresolvedIndex
  else if r.abbreviation = "" then some .emptyAbbreviation
  else r.caretError?

/-- What the abbreviation stands for. -/
def resolve (ix : Index) (settings : Settings) : Except RequestError Resolution :=
  match r.error? ix with
  | some e => .error e
  | none => .ok (.ofFragments (r.fragments ix settings))

/-- The insertion of a fragment at the caret; nothing if there is no place for it. -/
def insert (f : Fragment) : Except RequestError (Option Insertion) :=
  match r.caretError? with
  | some e => .error e
  | none => RequestError.ofEdit (insertion? ⟨r.source, r.caret⟩ r.parsed.tree f)

end Request

/-! ### Whole expansions -/

/-- A fragment that has been put into a text. -/
structure Applied where
  fragment : Fragment
  /-- The new text with the cursor behind the fragment. -/
  document : Document
  insertion : Insertion
deriving Repr

/-- What came of an abbreviation. -/
inductive Outcome where
  | inserted (a : Applied)
  | noCandidates
  /-- The user was asked and picked nothing. -/
  | declined
  | noPlace
deriving Repr

/-- An expansion, with the fragments that the user was asked about, if he was. -/
structure Expansion where
  shown : Option (List Fragment)
  outcome : Outcome
deriving Repr

namespace Request

/-- The outcome of a fragment that was chosen. -/
def commit (r : Request) (f : Fragment) : Except RequestError Outcome := do
  match ← r.insert f with
  | none => return .noPlace
  | some insertion =>
    let edited ← RequestError.ofEdit (Document.apply ⟨r.source, r.caret⟩ insertion.edits)
    return .inserted ⟨f, ⟨edited.text, insertion.cursor⟩, insertion⟩

end Request

/-- Expands an abbreviation at a caret. The user is asked only if it can stand for several things, and
answers with an index. -/
def expand (source : String) (caret : Nat) (abbreviation : String) (ix : Index)
    (settings : Settings) (pick : List Fragment → Option Nat) : Except RequestError Expansion := do
  let r := Request.ofSource source caret abbreviation
  match ← r.resolve ix.resolve settings with
  | .none => return ⟨none, .noCandidates⟩
  | .single f => return ⟨none, ← r.commit f⟩
  | .ambiguous fs =>
    match (pick fs).bind (fs[·]?) with
    | some f => return ⟨some fs, ← r.commit f⟩
    | none => return ⟨some fs, .declined⟩

end Shorthand
