import Shorthand.Candidate.Query

/-!
Candidates that are members of an owner.

The owner part of an abbreviation is the name or the abbreviation of a value or a type. A value comes
before all types. Of the types those that are imported or in `java.lang` come first, then those of the
package, then all others: the first of these tiers in which there are any counts.
-/

namespace Shorthand

namespace Index

variable (ix : Index)

/-- The name is the owner part of an abbreviation or is abbreviated by it. -/
def isOwnerName (owner name : String) : Bool := name == owner || abbreviates owner name

/-- The value that the owner part stands for; the one with just this name comes before others. -/
def ownerValue? (caret : Nat) (owner : String) : Option Element :=
  let values := (ix.elementsInScope caret).filter fun e => isOwnerName owner e.name
  values.find? (·.name == owner) <|> values.head?

/-- The type is imported or in `java.lang`. -/
def isImported (t : TypeInfo) : Bool :=
  t.package == "java.lang" || ix.imports.any fun i =>
    !i.isStatic && if i.onDemand then t.outer.isNone && i.name == t.package else i.name == t.name

/-- The tiers in which types are looked for. -/
def ownerTiers : List (TypeInfo → Bool) :=
  [ix.isImported, fun t => t.package == ix.package, fun _ => true]

/-- The types in the first tier in which there are any. -/
def firstTier (types : List TypeInfo) : List TypeInfo :=
  ((ix.ownerTiers.map types.filter).find? (!·.isEmpty)).getD []

/-- The types with just the name of the owner part if there are any, and otherwise all. -/
def exactFirst (owner : String) (types : List TypeInfo) : List TypeInfo :=
  let exact := types.filter (·.simpleName == owner)
  if exact.isEmpty then types else exact

/-- What the owner part of an abbreviation stands for at a caret. -/
def ownersAt (caret : Nat) (owner : String) : List Owner :=
  match ix.ownerValue? caret owner with
  | some e => [.value e.name e.ty]
  | none =>
    let types := ix.firstTier (ix.findTypes fun t => isOwnerName owner t.simpleName)
    (exactFirst owner types).map fun t => .type (ix.mention caret t)

end Index

namespace Query

variable (q : Query)

/-- The methods of the owners. -/
def memberCalls : List Fragment :=
  q.owners.flatMap fun o => (q.methodsOf o).map fun m => .call ⟨.method (some o.receiver), m, []⟩

/-- The fields of the owners that are types, or of those that are values. -/
def memberFields (ofTypes : Bool) : List Fragment :=
  (q.owners.filter (·.isType == ofTypes)).flatMap fun o =>
    (q.fieldsOf o).map fun f => .access ⟨some o.receiver, f⟩

/-- The types that are nested in an owner. -/
def nestedTypes (owner : TypeMention) : List TypeInfo :=
  q.index.findTypes fun t => t.outer == some owner.name && q.asksFor t.simpleName

/-- The types nested in the owners, named through them. -/
def memberTypes : List Fragment :=
  q.owners.flatMap fun
    | .type owner => (q.nestedTypes owner).map fun t =>
      .type ⟨t.name, owner.written ++ "." ++ t.simpleName, owner.importName⟩
    | .value _ _ => []

end Query

end Shorthand
