import Shorthand.Model.Index

/-!
Members of types, own and inherited.

`lineage` lists a type and its supertypes in the order in which they are met: a type before its
superclass with all above it, and these before its interfaces; no name is met twice, and below an
interface the class of all objects comes last. `membersOf` goes down this list and reports a field
unless one of its name is reported, and a method unless one of its name and parameter erasures is.
-/

namespace Shorthand

/-- The fields and methods that can be used on a value. -/
structure Members where
  fields : List FieldInfo
  methods : List MethodInfo
deriving DecidableEq, Repr

/-- A declared type and what its type parameters stand for. -/
structure Ancestor where
  info : TypeInfo
  bindings : Bindings

namespace Ancestor

/-- The type with arguments for its type parameters. -/
def ofArgs (info : TypeInfo) (args : List Ty) : Ancestor := ⟨info, info.typeParams.zip args⟩

/-- The supertypes as they are seen from below. -/
def supertypes (a : Ancestor) : List Ty := a.info.supertypes.map (·.substitute a.bindings)

/-- The fields as they are seen from below. -/
def fields (a : Ancestor) : List FieldInfo :=
  a.info.fields.map fun f => { f with ty := f.ty.substitute a.bindings }

/-- The methods as they are seen from below. -/
def methods (a : Ancestor) : List MethodInfo :=
  a.info.methods.map fun m =>
    { m with
      params := m.params.map fun p => { p with ty := p.ty.substitute a.bindings }
      ret := m.ret.substitute a.bindings }

end Ancestor

namespace Members

/-- No members. -/
def empty : Members := ⟨[], []⟩

/-- Two methods have one name and the same parameters when type arguments are left out. -/
def sameCall (m n : MethodInfo) : Bool :=
  m.name == n.name && m.params.length == n.params.length
    && (m.params.zip n.params).all fun (p, q) => p.ty.sameErasure q.ty

/-- Reports a field unless one of its name is reported. -/
def addField (fields : List FieldInfo) (f : FieldInfo) : List FieldInfo :=
  if fields.all (·.name != f.name) then fields ++ [f] else fields

/-- Reports a method unless one with the same parameters is reported. -/
def addMethod (methods : List MethodInfo) (m : MethodInfo) : List MethodInfo :=
  if methods.any (sameCall · m) then methods else methods ++ [m]

/-- Reports the members of one more type. -/
def addAll (ms : Members) (a : Ancestor) : Members :=
  ⟨a.fields.foldl addField ms.fields, a.methods.foldl addMethod ms.methods⟩

/-- The members of several types, those of earlier ones first. -/
def ofAncestors (as : List Ancestor) : Members := as.foldl addAll .empty

end Members

namespace Index

/-- Where following supertypes stands. -/
structure Visit where
  /-- The names met so far. -/
  seen : List String
  /-- The types met so far, in order. -/
  met : List Ancestor

/-- Meets a type and all above it that were not met before. Only names of known types are followed, so
their number bounds the depth. -/
def visit (ix : Index) : (depth : Nat) → Visit → Ty → Visit
  | depth + 1, v, .declared name args =>
    if v.seen.contains name then v
    else
      match ix.lookup? name with
      | none => { v with seen := name :: v.seen }
      | some info =>
        let self := Ancestor.ofArgs info args
        let v := self.supertypes.foldl (ix.visit depth) ⟨name :: v.seen, v.met ++ [self]⟩
        if info.kind = .interfaceType then ix.visit depth v .object else v
  | _, v, _ => v

/-- The number of types that have a name. -/
def typeCount (ix : Index) : Nat := ix.sources.length + ix.library.length

/-- A declared type and all its supertypes in the order in which they are met. -/
def lineage (ix : Index) (ty : Ty) : List Ancestor := (ix.visit (ix.typeCount + 2) ⟨[], []⟩ ty).met

/-- The only field of an array. -/
def lengthField : FieldInfo :=
  { name := "length", ty := .primitive .int, isStatic := false, isFinal := true
    isEnumConstant := false, declaring := "" }

/-- The members that can be used on the values of a type. -/
def membersOf (ix : Index) (ty : Ty) : Members :=
  match ty with
  | .declared _ _ => .ofAncestors (ix.lineage ty)
  | .array _ => (ix.lineage .object).foldl Members.addAll ⟨[lengthField], []⟩
  | .var _ => .ofAncestors (ix.lineage .object)
  | _ => .empty

/-- The type of the field with a name. -/
def fieldTy? (ix : Index) (ty : Ty) (name : String) : Option Ty :=
  ((ix.membersOf ty).fields.find? (·.name == name)).map (·.ty)

end Index

end Shorthand
