/-
Hdf5Bindings/Binding/Source.lean

The generated source file.

The source file includes the generated header and defines, for each binding of a plan, the
accessor of its only instance and its constructor.
-/
import Hdf5Bindings.Binding.Header
import Hdf5Bindings.Binding.Statement

namespace Hdf5Bindings

open Layout (Step)

namespace Binding

/-- The accessor of the only instance of a binding class. -/
def accessor (b : Binding) : List Step :=
  let cls := b.name.bindingClass
  [.opening (cls ++ "& " ++ cls ++ "::instance() noexcept \x7b"),
    .line ("static " ++ cls ++ " binding \x7b\x7d;"),
    .line "return binding;",
    .closing "\x7d"]

/-- The constructor of a binding class, with the statements it runs. -/
def constructor (b : Binding) (statements : List Statement) : List Step :=
  let cls := b.name.bindingClass
  [.opening (cls ++ "::" ++ cls ++ "() noexcept \x7b"),
    .line (b.target.category.text ++ "& datatype = mutable_datatype();")] ++
    statements.map (fun s => .line s.text) ++ [.closing "\x7d"]

/-- The definition of a binding class in its namespaces. -/
def definition (b : Binding) (statements : List Statement) : List Step :=
  insideScopes b.name (b.accessor ++ [.blank] ++ b.constructor statements)

end Binding

namespace Plan

/-- What a generated source file holds before its definitions. -/
def sourceTop (p : Plan) : List Step :=
  preamble p.sourceFileName ++ [includeLine (headerName p.stem)]

/-- The constructor statements of each binding, in order. -/
def bodies (p : Plan) : Logged GenerationError (List (Binding × List Statement)) :=
  p.bindings.mapM fun b => do
    let statements ← Statement.body p.registry b
    pure (b, statements)

/-- The definitions of bindings with given statements. -/
def definitions (bodies : List (Binding × List Statement)) : List Step :=
  bodies.flatMap fun b => .blank :: b.1.definition b.2

/-- The generated source file. -/
def source (p : Plan) : Logged GenerationError (List Step) := do
  let bodies ← p.bodies
  pure (p.sourceTop ++ definitions bodies)

end Plan

end Hdf5Bindings
