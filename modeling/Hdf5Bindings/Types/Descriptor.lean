/-
Hdf5Bindings/Types/Descriptor.lean

Descriptions of types.

A `Descriptor` says what one type is made of: a native scalar, a compound (a struct or class),
an enumeration or a union.  Fields refer to their types by qualified name.

HDF5 has no unions, so a union is stored as its `representative?`: the first member of compound
type if there is one, otherwise the first member.
-/
import Hdf5Bindings.Path
import Hdf5Bindings.QualifiedName
import Hdf5Bindings.Types.Native
import Hdf5Bindings.Types.EnumValue

namespace Hdf5Bindings

/-- The four kinds of types. -/
inductive Kind where
  | native
  | compound
  | enumeration
  | union
deriving DecidableEq, Repr, Inhabited

/-- The word for a kind in messages and documents. -/
def Kind.word : Kind → String
  | native => "Atomic"
  | compound => "Compound"
  | enumeration => "Enum"
  | union => "Union"

/-- A member of a compound or a union. -/
structure Field where
  name : String
  /-- Qualified name of the member's type, or of its elements' type. -/
  typeName : String
  /-- Kind of that type at the time the field was added. -/
  kind : Kind
  /-- Number of elements; one for a member that is no array. -/
  count : Nat
deriving DecidableEq, Repr, Inhabited

/-- Whether the member takes more than one element. -/
def Field.isArray (f : Field) : Bool :=
  1 < f.count

/-- A struct, class or union definition. -/
structure RecordType where
  name : String
  file : Path
  fields : List Field
deriving DecidableEq, Repr, Inhabited

namespace RecordType

def shortName (r : RecordType) : String :=
  QualifiedName.shortName r.name

/-- The member that stands for a union: the first of compound type, else the first. -/
def representative? (r : RecordType) : Option Field :=
  (r.fields.find? fun f => f.kind == .compound).or r.fields.head?

theorem representative?_eq_none_iff {r : RecordType} :
    r.representative? = none ↔ r.fields = [] := by
  cases h : r.fields <;> simp [representative?, h]

end RecordType

structure Enumerator where
  name : String
  value : EnumValue
deriving DecidableEq, Inhabited

/-- An enumeration definition. -/
structure EnumType where
  name : String
  /-- The underlying integer type as it is spelled. -/
  underlying : String
  file : Path
  constants : List Enumerator
deriving DecidableEq, Inhabited

def EnumType.shortName (e : EnumType) : String :=
  QualifiedName.shortName e.name

/-- What is known about one type. -/
inductive Descriptor where
  | native (type : NativeType)
  | compound (record : RecordType)
  | enumeration (type : EnumType)
  | union (record : RecordType)
deriving DecidableEq, Inhabited

namespace Descriptor

def kind : Descriptor → Kind
  | native _ => .native
  | compound _ => .compound
  | enumeration _ => .enumeration
  | union _ => .union

/-- The qualified name of the type. -/
def name : Descriptor → String
  | native t => t.spelling
  | compound r => r.name
  | enumeration e => e.name
  | union r => r.name

/-- The file that defines the type; native types have none. -/
def file? : Descriptor → Option Path
  | native _ => none
  | compound r => some r.file
  | enumeration e => some e.file
  | union r => some r.file

/-- The members of a compound or union; other types have none. -/
def fields : Descriptor → List Field
  | compound r => r.fields
  | union r => r.fields
  | native _ => []
  | enumeration _ => []

/-- The descriptor with one more member, if the type can have members. -/
def addField? (f : Field) : Descriptor → Option Descriptor
  | compound r => some (.compound { r with fields := r.fields ++ [f] })
  | union r => some (.union { r with fields := r.fields ++ [f] })
  | native _ => none
  | enumeration _ => none

/-- The enumeration with one more enumerator; other types can have none. -/
def addConstant? (c : Enumerator) : Descriptor → Option Descriptor
  | enumeration e => some (.enumeration { e with constants := e.constants ++ [c] })
  | native _ => none
  | compound _ => none
  | union _ => none

theorem kind_of_addField? {f : Field} {d d' : Descriptor} (h : d.addField? f = some d') :
    d'.kind = d.kind := by
  cases d <;> simp [addField?] at h <;> subst h <;> rfl

theorem fields_of_addField? {f : Field} {d d' : Descriptor} (h : d.addField? f = some d') :
    d'.fields = d.fields ++ [f] := by
  cases d <;> simp [addField?] at h <;> subst h <;> rfl

theorem name_of_addField? {f : Field} {d d' : Descriptor} (h : d.addField? f = some d') :
    d'.name = d.name := by
  cases d <;> simp [addField?] at h <;> subst h <;> rfl

end Descriptor

end Hdf5Bindings
