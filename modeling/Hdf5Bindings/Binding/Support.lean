/-
Hdf5Bindings/Binding/Support.lean

The support header.

Every generated header includes `DxTransformBase.h`, which holds the base class of the bindings
and the macro that takes the offset of a member.  It is the same for all headers and can be
written beside the generated files.
-/
import Hdf5Bindings.Binding.Artifact

namespace Hdf5Bindings

/-- The lines of the support header. -/
def supportLines : List String :=
  ["#ifndef DX_TRANSFORM_BASE_H",
    "#define DX_TRANSFORM_BASE_H",
    "",
    "#include <cstddef>",
    "",
    "#include \"H5Cpp.h\"",
    "",
    "#define HDF5_FIELD_OFFSET(StructVarName, FieldName) \\",
    "    static_cast<std::size_t>(reinterpret_cast<const char*>(&StructVarName.FieldName) - " ++
      "reinterpret_cast<const char*>(&StructVarName))",
    "",
    "namespace DxTransform",
    "\x7b",
    "    // Owns the HDF5 datatype describing T. Generated bindings derive from",
    "    // this and fill the datatype in their constructor.",
    "    template <typename T, typename H5TypeT>",
    "    class DxTransformBase",
    "    \x7b",
    "    public:",
    "        DxTransformBase(const DxTransformBase&) = delete;",
    "        DxTransformBase& operator=(const DxTransformBase&) = delete;",
    "",
    "        const H5TypeT& h5_datatype() const noexcept",
    "        \x7b",
    "            return datatype_;",
    "        \x7d",
    "",
    "    protected:",
    "        DxTransformBase() : datatype_(sizeof(T)) \x7b\x7d",
    "        ~DxTransformBase() = default;",
    "",
    "        H5TypeT& mutable_datatype() noexcept",
    "        \x7b",
    "            return datatype_;",
    "        \x7d",
    "",
    "    private:",
    "        H5TypeT datatype_;",
    "    \x7d;",
    "\x7d",
    "",
    "#endif"]

/-- The support header in a directory. -/
def supportHeader (directory : Path) : Artifact :=
  ⟨directory.join ⟨supportHeaderName⟩, Text.join "\n" supportLines ++ "\n"⟩

end Hdf5Bindings
