/-
Hdf5Bindings/Run/Basic.lean

A run of the program.

A run reads the unit and the exclusion list, analyses the unit, generates both files and only
then writes anything (`prepare` comes before `run`).  So a run that fails before it writes leaves
the disk as it was.
-/
import Hdf5Bindings.Binding.Support
import Hdf5Bindings.CommandLine.Arguments
import Hdf5Bindings.Decl.Document

namespace Hdf5Bindings

/-- What a run generates, and the records that its policy lets through. -/
def prepare (disk : FileTree) (a : Arguments) (s : Settings) : Logged RunError Artifacts := do
  let unit ← Logged.ofExcept
    ((TranslationUnit.load disk a.unit).mapError (.unit a.unit))
  let exclusion ← Logged.ofExcept
    ((Exclusion.loadOptional disk s.ignoreFile?).mapError (.exclusion s.ignoreFile?))
  let scope ← (s.policy.judge (unit.analyse disk s.includeDirectories)).mapError .analysis
  (s.policy.judge (generate s.format scope exclusion)).mapError .generation

/-- Write what a run generates, and the support header if it is wanted. -/
def writeAll (a : Arguments) (s : Settings) (files : Artifacts) : WriteAction Unit := do
  files.write
  if a.supportHeader then (supportHeader s.outputDirectory).write

/-- A run and the disk after it. -/
def run (a : Arguments) (s : Settings) (disk : FileTree) : Logged RunError Artifacts × FileTree :=
  let prepared := prepare disk a s
  match prepared.outcome with
  | .error _ => (prepared, disk)
  | .ok files =>
    match (writeAll a s files).run disk with
    | (.ok (), after) => (prepared, after)
    | (.error error, after) => (⟨prepared.messages, .error (.generation error)⟩, after)

end Hdf5Bindings
