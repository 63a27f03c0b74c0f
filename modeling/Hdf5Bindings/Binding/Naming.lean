/-
Hdf5Bindings/Binding/Naming.lean

Names of what is generated.

Every bound type gets a class, the class stands in namespaces that follow the scopes of the
type, and constructors that use it keep its instance in a variable.  A header `sample.h` gets
the files `sample_DxTransform.h` and `sample_DxTransform.cpp`; the part before the first dot is
the header's *stem*.
-/
import Hdf5Bindings.QualifiedName
import Hdf5Bindings.Path

namespace Hdf5Bindings

/-- The HDF5 datatype class that a binding fills in. -/
inductive Category where
  | enumType
  | compType
deriving DecidableEq, Repr, Inhabited

def Category.text : Category → String
  | enumType => "H5::EnumType"
  | compType => "H5::CompType"

/-! ### Classes -/

/-- What class names and file names end in. -/
def bindingSuffix : String := "DxTransform"

/-- The header that every generated header includes. -/
def supportHeaderName : String := "DxTransformBase.h"

namespace QualifiedName

/-- The binding class: `CDxTransform` for `A::B::C`. -/
def bindingClass (n : QualifiedName) : String :=
  Identifier.sanitize n.typeName ++ bindingSuffix

/-- The namespaces of the binding class, outermost first: `A_Dx` and `B_Dx` for `A::B::C`. -/
def bindingScopes (n : QualifiedName) : List String :=
  n.scopes.map fun scope => Identifier.sanitize scope ++ "_Dx"

/-- The binding class as any namespace can refer to it. -/
def bindingReference (n : QualifiedName) : String :=
  String.join ((n.bindingScopes ++ [n.bindingClass]).map fun part => "::" ++ part)

/-- The variable that holds the instance of the binding class. -/
def bindingVariable (n : QualifiedName) : String :=
  "zzz_" ++ n.sanitized ++ "_dx"

/-- The class that the binding class derives from. -/
def bindingBase (n : QualifiedName) (category : Category) : String :=
  "DxTransform::DxTransformBase<" ++ n.text ++ ", " ++ category.text ++ ">"

end QualifiedName

/-! ### Files -/

/-- The part of the file name before its first dot, if there is any. -/
def Path.stem? (p : Path) : Option String :=
  match p.fileName? with
  | none => none
  | some name =>
    let stem := name.toList.takeWhile (· ≠ '.')
    if stem.isEmpty then none else some (String.ofList stem)

/-- The generated header for a stem. -/
def headerName (stem : String) : String :=
  stem ++ "_" ++ bindingSuffix ++ ".h"

/-- The generated source file for a stem. -/
def sourceName (stem : String) : String :=
  stem ++ "_" ++ bindingSuffix ++ ".cpp"

/-- The macro that guards the generated header for a stem. -/
def includeGuard (stem : String) : String :=
  Identifier.capitals (Identifier.sanitize stem) ++ "_DX_TRANSFORM_H"

def headerPath (dir : Path) (stem : String) : Path :=
  dir.join ⟨headerName stem⟩

def sourcePath (dir : Path) (stem : String) : Path :=
  dir.join ⟨sourceName stem⟩

end Hdf5Bindings
