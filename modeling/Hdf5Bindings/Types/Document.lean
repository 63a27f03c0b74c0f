/-
Hdf5Bindings/Types/Document.lean

Type descriptions as JSON values.

A descriptor is an object whose only member has the kind of the type for its key.  All fields
have to be there.
-/
import Hdf5Bindings.Json.Record
import Hdf5Bindings.Types.Descriptor

namespace Hdf5Bindings

open Json (record? required text? natBelow? enumValue? elements?)

/-- More levels than any value that is read has. -/
def anyDepth : Nat := 1

def Kind.ofWord? : String → Option Kind
  | "Atomic" => some .native
  | "Compound" => some .compound
  | "Enum" => some .enumeration
  | "Union" => some .union
  | _ => none

theorem Kind.ofWord?_word (k : Kind) : Kind.ofWord? k.word = some k := by
  cases k <;> rfl

def NativeType.ofJson? (j : Json) : Option NativeType :=
  (Json.word? anyDepth j).bind NativeType.ofWord?

def Field.ofJson? (j : Json) : Option Field := do
  let fields ← record? ["name", "type_name", "type_kind", "element_count"] j
  let name ← required fields "name" text?
  let typeName ← required fields "type_name" text?
  let kind ← required fields "type_kind" fun k => (Json.word? anyDepth k).bind Kind.ofWord?
  let count ← required fields "element_count" (natBelow? 0x10000000000000000)
  pure ⟨name, typeName, kind, count⟩

def RecordType.ofJson? (j : Json) : Option RecordType := do
  let fields ← record? ["name", "declaring_file", "fields"] j
  let name ← required fields "name" text?
  let file ← required fields "declaring_file" text?
  let members ← required fields "fields" (elements? Field.ofJson?)
  pure ⟨name, ⟨file⟩, members⟩

def Enumerator.ofJson? (j : Json) : Option Enumerator := do
  let fields ← record? ["name", "value"] j
  let name ← required fields "name" text?
  let value ← required fields "value" enumValue?
  pure ⟨name, value⟩

def EnumType.ofJson? (j : Json) : Option EnumType := do
  let fields ← record? ["name", "underlying_type", "declaring_file", "constants"] j
  let name ← required fields "name" text?
  let underlying ← required fields "underlying_type" text?
  let file ← required fields "declaring_file" text?
  let constants ← required fields "constants" (elements? Enumerator.ofJson?)
  pure ⟨name, underlying, ⟨file⟩, constants⟩

def Descriptor.ofJson? (j : Json) : Option Descriptor := do
  match ← Json.choice? j with
  | ("Atomic", type) => (NativeType.ofJson? type).map .native
  | ("Compound", type) => (RecordType.ofJson? type).map .compound
  | ("Enum", type) => (EnumType.ofJson? type).map .enumeration
  | ("Union", type) => (RecordType.ofJson? type).map .union
  | _ => none

end Hdf5Bindings
