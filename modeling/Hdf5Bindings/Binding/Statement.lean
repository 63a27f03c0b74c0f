/-
Hdf5Bindings/Binding/Statement.lean

What the constructor of a binding does.

A constructor describes the memory layout of its type to HDF5, statement by statement:

* a member of native type uses the predefined datatype;
* a member of another type uses the datatype of that type's binding, whose instance is fetched
  into a variable once per constructor, before its first use;
* a fixed-size array is one member of array type, except that an array of an enumeration is
  registered element by element;
* a member whose type is a union without members is left out with a warning;
* an enumeration inserts its enumerators with their values.

The offset of a member is taken in a constant instance of the owning type.
-/
import Hdf5Bindings.Binding.Plan

namespace Hdf5Bindings

/-- An expression for an HDF5 datatype. -/
inductive Datatype where
  | native (type : NativeType)
  /-- The datatype of the binding held by a variable. -/
  | dependent (holder : String)
  /-- Elements of one datatype, as many as the extents of a member say. -/
  | array (element : Datatype) (member : String)
deriving DecidableEq, Repr, Inhabited

/-- The variable with the extents of an array member. -/
def extentsVariable (member : String) : String :=
  member ++ "_dims"

/-- The constant in which offsets are taken. -/
def offsetInstance : String := "zzz_tmp"

def Datatype.text : Datatype → String
  | native type => "H5::PredType::" ++ type.tag
  | dependent holder => holder ++ ".h5_datatype()"
  | array element member =>
    "H5::ArrayType(" ++ element.text ++ ", 1, " ++ extentsVariable member ++ ")"

/-- A statement of a constructor. -/
inductive Statement where
  /-- Declare the constant in which offsets are taken. -/
  | declareInstance (typeName : String)
  /-- Fetch the instance of another binding. -/
  | fetch (holder reference : String)
  | declareExtents (member : String) (count : Nat)
  /-- Register a member: the name it is stored under, what its offset is taken of, its datatype. -/
  | insertMember (member offsetOf : String) (datatype : Datatype)
  /-- Declare the variable that enumerators are passed in. -/
  | declareValue (underlying : String)
  | insertConstant (constant : Enumerator)
deriving DecidableEq, Inhabited

def Statement.text : Statement → String
  | declareInstance typeName =>
    "static constexpr " ++ typeName ++ " " ++ offsetInstance ++ " \x7b\x7d;"
  | fetch holder reference => "auto& " ++ holder ++ " = " ++ reference ++ "::instance();"
  | declareExtents member count =>
    "hsize_t " ++ extentsVariable member ++ "[1] = \x7b" ++ Text.natural count ++ "\x7d;"
  | insertMember member offsetOf datatype =>
    "datatype.insertMember(\"" ++ member ++ "\", HDF5_FIELD_OFFSET(" ++ offsetInstance ++ ", " ++
      offsetOf ++ "), " ++ datatype.text ++ ");"
  | declareValue underlying => underlying ++ " ev \x7b\x7d;"
  | insertConstant constant =>
    "datatype.insert(\"" ++ constant.name ++ "\", (ev = " ++ constant.value.literal ++ ", &ev));"

namespace Statement

/-! ### Members -/

/-- The name of one element of an array member. -/
def elementName (member : String) (index : Nat) : String :=
  member ++ "[" ++ Text.natural index ++ "]"

/-- Register a member of a datatype, as one array if it takes several elements. -/
def insertWhole (f : Field) (datatype : Datatype) : List Statement :=
  if f.isArray then
    [.declareExtents f.name f.count,
      .insertMember f.name (elementName f.name 0) (.array datatype f.name)]
  else [.insertMember f.name f.name datatype]

/-- Register a member of a datatype element by element. -/
def insertElements (f : Field) (datatype : Datatype) : List Statement :=
  if f.isArray then
    (List.range f.count).map fun index =>
      .insertMember (elementName f.name index) (elementName f.name index) datatype
  else [.insertMember f.name f.name datatype]

/-- The variable that holds the binding of a type, and the statement that fetches it unless that
has been done. -/
def fetchIfNew (fetched : List String) (typeName : String) :
    Except GenerationError (String × List Statement) :=
  match QualifiedName.parse typeName with
  | .error error => .error (.invalidName error)
  | .ok name =>
    let statements :=
      if fetched.contains name.bindingVariable then []
      else [.fetch name.bindingVariable name.bindingReference]
    .ok (name.bindingVariable, statements)

def omittedText (f : Field) (u : RecordType) : String :=
  "Field " ++ f.name ++ " uses union " ++ u.name ++ " which has no members; field omitted"

/-- The statements for a member whose datatype comes from another binding, and the variables
fetched by then. -/
def dependentMember (fetched : List String) (typeName : String)
    (insert : Datatype → List Statement) :
    Except GenerationError (List String × List Statement) := do
  let (holder, first) ← fetchIfNew fetched typeName
  pure (holder :: fetched, first ++ insert (.dependent holder))

/-- The statements for a member, and the variables fetched by then. -/
def member (r : Registry) (fetched : List String) (f : Field) :
    Logged GenerationError (List String × List Statement) :=
  match r.lookup f.typeName with
  | .error error => Logged.fail (.analysis error)
  | .ok (.native type) => pure (fetched, insertWhole f (.native type))
  | .ok (.compound record) =>
    Logged.ofExcept (dependentMember fetched record.name (insertWhole f))
  | .ok (.enumeration type) =>
    Logged.ofExcept (dependentMember fetched type.name (insertElements f))
  | .ok (.union record) =>
    if record.representative?.isNone then do
      Logged.announce .warning (omittedText f record)
      pure (fetched, [])
    else Logged.ofExcept (dependentMember fetched record.name (insertWhole f))

/-- The statements for the members in order. -/
def members (r : Registry) (fetched : List String) :
    List Field → Logged GenerationError (List Statement)
  | [] => pure []
  | f :: fs => do
    let (fetched, first) ← member r fetched f
    let rest ← members r fetched fs
    pure (first ++ rest)

/-! ### Constructors -/

/-- The statements for the enumerators of an enumeration. -/
def constants (type : EnumType) : List Statement :=
  .declareValue type.underlying :: type.constants.map .insertConstant

/-- What the constructor of a binding does with its datatype. -/
def body (r : Registry) (b : Binding) : Logged GenerationError (List Statement) :=
  match b.target with
  | .enumeration type => pure (constants type)
  | .compound _ | .union _ _ =>
    match b.target.members with
    | [] => pure []
    | fields => do
      let statements ← members r [] fields
      pure (.declareInstance b.name.text :: statements)

end Statement

end Hdf5Bindings
