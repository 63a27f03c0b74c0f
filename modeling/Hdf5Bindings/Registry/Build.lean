/-
Hdf5Bindings/Registry/Build.lean

From declarations to the registry.

The visited declarations of a tree are taken in order.  A type definition is registered; a
field or an enumerator is added to the definition around it.  Fields that HDF5 cannot describe
are left out with a warning: bitfields, and fields whose type is not registered (yet).

`Registry.visit` is one such step and `Registry.build` the whole walk.
-/
import Hdf5Bindings.Decl.Visit
import Hdf5Bindings.Registry.Basic

namespace Hdf5Bindings.Registry

/-! ### Wordings -/

/-- How every message about a field that is left out ends. -/
def droppedText (name owner : String) : String :=
  " (field " ++ DeclFault.quote name ++ " of " ++ owner ++ " dropped)"

def bitfieldText (type : FieldType) (width : Nat) (name owner : String) : String :=
  "Bitfield members are not supported: " ++ type.element.spelling ++ " : " ++
    Text.natural width ++ droppedText name owner

def unresolvedText (type : FieldType) (name owner : String) : String :=
  match type with
  | .scalar t =>
    "Unknown type not known to type manager: " ++ t.spelling ++ droppedText name owner
  | .array t count =>
    "Unknown array type not known to type manager: " ++ t.resolved ++ " | " ++ t.spelling ++
      "[" ++ Text.natural count ++ "]" ++ droppedText name owner

def attachedText (type : FieldType) (name owner : String) : String :=
  (if 1 < type.count then "Array" else "Non-array") ++ " var: " ++ name ++
    " (child of " ++ owner ++ ")"

/-! ### One visited declaration -/

/-- Register a definition and say so. -/
def registerDefinition (r : Registry) (d : Descriptor) : Logged Error Registry := do
  Logged.announce .debug2 ("Registering " ++ d.kind.word ++ " " ++ d.name)
  Logged.ofExcept (r.register d.name d)

/-- The definition around a member. -/
def ownerOf (v : Visit) : Except Error String :=
  match v.owner? with
  | some owner => .ok owner
  | none => .error (.detachedMember v.info.spelling)

def visitEnumerator (r : Registry) (v : Visit) : Except Error Registry := do
  match v.info.value? with
  | none => throw (.invalidDeclaration (.constantWithoutValue v.info.spelling))
  | some value => r.addConstant (← ownerOf v) ⟨v.info.spelling, value⟩

/-- Add a field of known type to its owner. -/
def attachField (r : Registry) (name owner : String) (type : FieldType) (d : Descriptor) :
    Logged Error Registry := do
  Logged.announce .debug1 (attachedText type name owner)
  Logged.ofExcept (r.addField owner ⟨name, type.element.resolved, d.kind, type.count⟩)

def visitField (r : Registry) (v : Visit) : Logged Error Registry := do
  let name := v.info.spelling
  match v.info.type? with
  | none => Logged.fail (.invalidDeclaration (.fieldWithoutType name))
  | some type =>
    let owner ← Logged.ofExcept (ownerOf v)
    match v.info.bitWidth? with
    | some width =>
      Logged.announce .warning (bitfieldText type width name owner)
      pure r
    | none =>
      match r.find? type.element.resolved with
      | none =>
        Logged.announce .warning (unresolvedText type name owner)
        pure r
      | some d => r.attachField name owner type d

/-- The registry after one more visited declaration. -/
def visit (r : Registry) (v : Visit) : Logged Error Registry :=
  let info := v.info
  match info.kind with
  | .structRecord | .classRecord =>
    if info.isDefinition then r.registerDefinition (.compound ⟨info.name, info.file, []⟩)
    else pure r
  | .union =>
    if info.isDefinition then r.registerDefinition (.union ⟨info.name, info.file, []⟩)
    else pure r
  | .enumeration =>
    if info.isDefinition then
      match info.underlying? with
      | none => Logged.fail (.invalidDeclaration (.enumWithoutType info.name))
      | some underlying =>
        r.registerDefinition (.enumeration ⟨info.name, underlying, info.file, []⟩)
    else pure r
  | .enumerator => Logged.ofExcept (r.visitEnumerator v)
  | .field => r.visitField v
  | .translationUnit | .nameSpace | .other => pure r

/-! ### The whole tree -/

/-- The registry of all types that a declaration tree defines. -/
def build (root : Decl) : Logged Error Registry :=
  root.visits.foldlM visit natives

end Hdf5Bindings.Registry
