/-
Hdf5Bindings/CommandLine/Arguments.lean

The arguments of the program.

The program takes one path, options with a value and flags.  `Arguments` is what they say once
they have been read, `Arguments.settings` what they and the settings file together ask for.
-/
import Hdf5Bindings.Run.Error
import Hdf5Bindings.Settings

namespace Hdf5Bindings

structure Arguments where
  /-- The document with the declarations of the header. -/
  unit : Path
  outputDirectory? : Option Path := none
  includeDirectories : List Path := []
  verbosity? : Option Nat := none
  ignoreFile? : Option Path := none
  warningsAsErrors : Bool := false
  settingsFile? : Option Path := none
  /-- Whether the support header is wanted too. -/
  supportHeader : Bool := false
deriving DecidableEq, Repr, Inhabited

namespace Arguments

/-- The exclusion list that is looked for when none is given. -/
def defaultIgnoreFile : Path := ⟨"ignore.txt"⟩

/-- The settings in the settings file, or the defaults. -/
def fileSettings (disk : FileTree) (a : Arguments) : Except RunError Settings :=
  match a.settingsFile? with
  | none => .ok {}
  | some path => (Settings.load disk path).mapError (.settings path)

/-- The settings of a run: what the arguments say goes before what the settings file says, and
search directories add up. -/
def settings (disk : FileTree) (a : Arguments) : Except RunError Settings := do
  let s ← a.fileSettings disk
  pure { s with
    outputDirectory := a.outputDirectory?.getD s.outputDirectory
    includeDirectories := s.includeDirectories ++ a.includeDirectories
    verbosity := a.verbosity?.getD s.verbosity
    ignoreFile? := some ((a.ignoreFile?.or s.ignoreFile?).getD defaultIgnoreFile)
    warningsAsErrors := s.warningsAsErrors || a.warningsAsErrors }

end Arguments

end Hdf5Bindings
