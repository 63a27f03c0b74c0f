/-
Hdf5Bindings/Binding/Header.lean

The generated header.

The generated header guards itself and includes the support header, the header that it is made
for and the generated headers of other headers.  It declares one class for each binding of a plan.
-/
import Hdf5Bindings.Binding.Plan
import Hdf5Bindings.Layout

namespace Hdf5Bindings

open Layout (Step)

/-- The lines that every generated file starts with. -/
def preamble (sourceFileName : String) : List Step :=
  [.line ("// HDF5 datatype bindings for " ++ sourceFileName ++ ", generated by h5bind."),
    .line "// Do not edit: this file is overwritten every time bindings are regenerated.",
    .blank]

def includeLine (header : String) : Step :=
  .line ("#include \"" ++ header ++ "\"")

/-- Text inside the namespaces of a binding. -/
def insideScopes (name : QualifiedName) (inner : List Step) : List Step :=
  name.bindingScopes.map (fun scope => .opening ("namespace " ++ scope ++ " \x7b")) ++ inner ++
    name.bindingScopes.map fun _ => .closing "\x7d"

namespace Binding

/-- The declaration of a binding class. -/
def classDeclaration (b : Binding) : List Step :=
  let cls := b.name.bindingClass
  [.line ("class " ++ cls ++ " : public " ++ b.name.bindingBase b.target.category ++ " \x7b"),
    .line "public:",
    .indent,
    .line ("static " ++ cls ++ "& instance() noexcept;"),
    .dedent,
    .blank,
    .line "private:",
    .indent,
    .line (cls ++ "() noexcept;"),
    .dedent,
    .line "\x7d;"]

/-- The declaration of a binding class in its namespaces. -/
def declaration (b : Binding) : List Step :=
  insideScopes b.name b.classDeclaration

end Binding

namespace Plan

/-- What a generated header holds before its declarations. -/
def headerTop (p : Plan) : List Step :=
  preamble p.sourceFileName ++
    [.line ("#ifndef " ++ includeGuard p.stem),
      .line ("#define " ++ includeGuard p.stem),
      .blank] ++
    (supportHeaderName :: p.sourceFileName :: p.dependencyHeaders).map includeLine

/-- The generated header. -/
def header (p : Plan) : List Step :=
  p.headerTop ++ p.bindings.flatMap (fun b => .blank :: b.declaration) ++
    [.blank, .line "#endif"]

end Plan

end Hdf5Bindings
