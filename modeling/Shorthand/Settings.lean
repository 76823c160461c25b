/-!
Settings.

Candidates come in families that can be turned on and off one by one. The other settings say how calls
are chosen among overloads and how names in scope are weighed as arguments.

* `Flags.isOn_set` says that a flag that is set has its new value and the others keep theirs.
-/

namespace Shorthand

/-- A family of candidates. -/
inductive Family where
  | keywords
  | modifiers
  | primitiveTypes
  | literals
  | localElements
  | declaredTypes
  | innerTypes
  | methods
  | staticImports
  | enumConstants
  | constructors
  | memberInvocations
  | staticFields
  | instanceFields
  | memberTypes
deriving DecidableEq, Repr

namespace Family

/-- Every family. -/
def all : List Family :=
  [.keywords, .modifiers, .primitiveTypes, .literals, .localElements, .declaredTypes, .innerTypes,
   .methods, .staticImports, .enumConstants, .constructors, .memberInvocations, .staticFields,
   .instanceFields, .memberTypes]

/-- The name of a family in a configuration. -/
def key : Family → String
  | keywords => "keywords"
  | modifiers => "modifiers"
  | primitiveTypes => "primitive_types"
  | literals => "literals"
  | localElements => "local_elements"
  | declaredTypes => "declared_types"
  | innerTypes => "inner_types"
  | methods => "methods"
  | staticImports => "static_imports"
  | enumConstants => "enum_constants"
  | constructors => "constructors"
  | memberInvocations => "member_invocations"
  | staticFields => "static_fields"
  | instanceFields => "instance_fields"
  | memberTypes => "member_types"

/-- The family with a name. -/
def ofKey? (name : String) : Option Family := all.find? (·.key == name)

end Family

/-- Which families are on. A family that is not mentioned is off. -/
structure Flags where
  mentioned : Family → Option Bool

namespace Flags

/-- No family is mentioned. -/
def empty : Flags := ⟨fun _ => none⟩

/-- Every family is mentioned with the value it has in a store. -/
def ofStore (store : Family → Bool) : Flags := ⟨fun f => some (store f)⟩

/-- Every family is on. -/
def allOn : Flags := ofStore fun _ => true

/-- The flags with one family turned on or off. -/
def set (flags : Flags) (family : Family) (on : Bool) : Flags :=
  ⟨fun f => if f = family then some on else flags.mentioned f⟩

/-- The family is on. -/
def isOn (flags : Flags) (family : Family) : Bool := (flags.mentioned family).getD false

/-- The mentioned families with their values. -/
def toList (flags : Flags) : List (Family × Bool) :=
  Family.all.filterMap fun f => (flags.mentioned f).map (f, ·)

theorem isOn_set (flags : Flags) (family f : Family) (on : Bool) :
    (flags.set family on).isOn f = if f = family then on else flags.isOn f := by
  unfold isOn set
  split <;> simp_all

end Flags

/-- How the shares of arguments that are found in scope compare: as fractions, or cut down to whole
numbers, so that only a call with all of its arguments is above the others. -/
inductive ShareComparison where
  | exact
  | truncated
deriving DecidableEq, Repr

/-- All that can be set. -/
structure Settings where
  flags : Flags
  comparison : ShareComparison
  /-- How much farther off a name in scope is as an argument when its type only fits that of the
  parameter and is not the same. -/
  assignablePenalty : Nat

namespace Settings

/-- What holds where nothing is set. -/
def default : Settings := ⟨.allOn, .exact, 1000⟩

end Settings

end Shorthand
