/-
Hdf5Bindings/Binding/Artifact.lean

The generated files.

`generate` makes a plan for a header and writes both files of it as texts; `Artifacts.write`
puts them on disk, the header first.  Missing directories on the way to a file are made.  When a
file cannot be written, what has been written before it stays.
-/
import Hdf5Bindings.Binding.Source

namespace Hdf5Bindings

/-- A text and the path of the file that it is meant for. -/
structure Artifact where
  path : Path
  contents : String
deriving DecidableEq, Repr, Inhabited

/-- What is generated for one header. -/
structure Artifacts where
  header : Artifact
  source : Artifact
deriving DecidableEq, Repr, Inhabited

/-- How a generated file is laid out and where it goes. -/
structure OutputFormat where
  directory : Path
  /-- Number of blanks that a level is indented by. -/
  indentWidth : Nat := 4
deriving DecidableEq, Repr, Inhabited

/-- The files for a plan. -/
def Plan.artifacts (format : OutputFormat) (p : Plan) : Logged GenerationError Artifacts := do
  let source ← p.source
  pure {
    header := ⟨headerPath format.directory p.stem, Layout.render format.indentWidth p.header⟩
    source := ⟨sourcePath format.directory p.stem, Layout.render format.indentWidth source⟩ }

/-- The files for the header of a file scope. -/
def generate (format : OutputFormat) (s : FileScope) (x : Exclusion) :
    Logged GenerationError Artifacts := do
  let plan ← Plan.make s x
  plan.artifacts format

/-! ### On disk -/

/-- An action that writes generated files. -/
abbrev WriteAction (α : Type) := ExceptT GenerationError (StateM FileTree) α

/-- An action on files; its fault is that the file or directory at a path cannot be written. -/
def writing {α : Type} (path : Path) (action : FileTree.Action α) : WriteAction α :=
  ExceptT.adapt (.unwritable path) action

namespace Artifact

/-- Write the file in a directory that exists. -/
def write (a : Artifact) : WriteAction Unit :=
  writing a.path (FileTree.createFile a.path a.contents)

/-- Make the directories on the way to the file. -/
def makeRoom (a : Artifact) : WriteAction Unit :=
  match a.path.parent? with
  | some parent =>
    if parent.text.isEmpty then pure ()
    else writing parent (FileTree.createDirectories parent)
  | none => pure ()

end Artifact

namespace Artifacts

/-- Write both files. -/
def write (files : Artifacts) : WriteAction Unit := do
  files.header.makeRoom
  files.header.write
  files.source.makeRoom
  files.source.write

def paths (files : Artifacts) : List Path :=
  [files.header.path, files.source.path]

end Artifacts

end Hdf5Bindings
