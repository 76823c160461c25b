import Shorthand.Candidate.Members
import Shorthand.Candidate.Types
import Shorthand.Candidate.Values
import Shorthand.Candidate.Words
import Shorthand.Settings

/-!
Which candidates there are in a slot.

A slot has a list of collectors, another one for abbreviations with an owner. The candidates are what the
collectors bring, in order, when their families are on.
-/

namespace Shorthand

/-- A way of getting candidates. -/
inductive Collector where
  | keywords (among : List Keyword)
  | modifiers (among : List Keyword)
  | primitiveTypes
  | literals
  | thisKeyword
  | localElements
  | declaredTypes (sort : TypeSort)
  | innerTypes (sort : TypeSort)
  | methods
  | staticImports
  | enumConstants
  | constructors
  | memberCalls
  | staticFields
  | instanceFields
  | memberTypes
deriving DecidableEq, Repr

namespace Collector

/-- The family that turns the collector on and off. -/
def family : Collector → Family
  | keywords _ | thisKeyword => .keywords
  | modifiers _ => .modifiers
  | primitiveTypes => .primitiveTypes
  | literals => .literals
  | localElements => .localElements
  | declaredTypes _ => .declaredTypes
  | innerTypes _ => .innerTypes
  | methods => .methods
  | staticImports => .staticImports
  | enumConstants => .enumConstants
  | constructors => .constructors
  | memberCalls => .memberInvocations
  | staticFields => .staticFields
  | instanceFields => .instanceFields
  | memberTypes => .memberTypes

/-- The candidates that the collector brings. -/
def collect (q : Query) : Collector → List Fragment
  | keywords among => q.keywords among
  | modifiers among => q.modifiers among
  | primitiveTypes => q.primitiveTypes
  | literals => q.literals
  | thisKeyword => q.thisKeyword
  | localElements => q.localElements
  | declaredTypes sort => q.declaredTypes sort
  | innerTypes sort => q.innerTypes sort
  | methods => q.ownMethods
  | staticImports => q.staticImports
  | enumConstants => q.enumConstants
  | constructors => q.constructors
  | memberCalls => q.memberCalls
  | staticFields => q.memberFields true
  | instanceFields => q.memberFields false
  | memberTypes => q.memberTypes

end Collector

/-! ### Words in slots -/

/-- The keywords with which statements and expressions start. -/
def statementKeywords : List Keyword :=
  [.assertKw, .breakKw, .continueKw, .doKw, .forKw, .ifKw, .newKw, .returnKw, .switchKw,
   .synchronizedKw, .throwKw, .tryKw, .whileKw]

/-- The modifiers of variables and parameters. -/
def localModifiers : List Keyword := [.finalKw]

/-- The modifiers of members. -/
def memberModifiers : List Keyword :=
  [.publicKw, .protectedKw, .privateKw, .staticKw, .finalKw, .abstractKw, .nativeKw,
   .synchronizedKw, .transientKw, .volatileKw, .strictfpKw]

/-- The keywords with which members start. -/
def memberKeywords : List Keyword := [.classKw, .interfaceKw, .enumKw, .voidKw]

/-- The keywords with which declarations at the top of a text start. -/
def unitKeywords : List Keyword := [.packageKw, .importKw, .classKw, .interfaceKw, .enumKw]

/-- The modifiers of types at the top of a text. -/
def unitModifiers : List Keyword := [.publicKw, .abstractKw, .finalKw]

/-- The keywords of the labels of a switch. -/
def switchLabels : List Keyword := [.caseKw, .defaultKw]

namespace Slot

/-- What can start a statement. -/
def statementCollectors : List Collector :=
  [.keywords statementKeywords, .modifiers localModifiers, .primitiveTypes, .declaredTypes .any,
   .innerTypes .any, .localElements, .methods, .staticImports, .thisKeyword]

/-- The collectors for an abbreviation without an owner. -/
def collectors : Slot → List Collector
  | nothing => []
  | compilationUnit => [.keywords unitKeywords, .modifiers unitModifiers]
  | typeHeader => [.keywords headKeywords]
  | members =>
    [.modifiers memberModifiers, .keywords memberKeywords, .primitiveTypes, .declaredTypes .any,
     .innerTypes .any]
  | parameters =>
    [.modifiers localModifiers, .primitiveTypes, .declaredTypes .any, .innerTypes .any]
  | afterParameters => [.keywords [.throwsKw]]
  | types sort primitives =>
    (if primitives then [.primitiveTypes] else []) ++ [.declaredTypes sort, .innerTypes sort]
  | statement => statementCollectors
  | switchStart => [.keywords switchLabels]
  | switchStatement => .keywords switchLabels :: statementCollectors
  | caseLabel => [.enumConstants, .localElements]
  | expression | condition => [.localElements, .methods, .staticImports, .thisKeyword, .literals]
  | instanceCreation => [.constructors]

/-- The collectors for an abbreviation with an owner. -/
def memberCollectors : Slot → List Collector
  | statement | switchStatement => [.memberCalls, .staticFields, .instanceFields, .memberTypes]
  | expression | condition | caseLabel => [.memberCalls, .staticFields, .instanceFields]
  | types _ _ | members | parameters => [.memberTypes]
  | nothing | compilationUnit | typeHeader | afterParameters | switchStart | instanceCreation => []

end Slot

/-- The candidates of those collectors of which the families are on. -/
def Query.candidates (q : Query) (collectors : List Collector) (flags : Flags) : List Fragment :=
  (collectors.filter fun c => flags.isOn c.family).flatMap (·.collect q)

end Shorthand
