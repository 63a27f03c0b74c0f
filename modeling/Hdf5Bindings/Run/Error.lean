/-
Hdf5Bindings/Run/Error.lean

Why a run can fail.

A failure says at which step the run ended.  Steps that read a file give their failures a
context that names the file.
-/
import Hdf5Bindings.Binding.Error
import Hdf5Bindings.Text.Quoted

namespace Hdf5Bindings

inductive RunError where
  | settings (file : Path) (error : Error)
  | unit (file : Path) (error : Error)
  | exclusion (file? : Option Path) (error : Error)
  | analysis (error : Error)
  | generation (error : GenerationError)
deriving DecidableEq, Repr

namespace RunError

/-- A path in quotes. -/
def quotedPath (path : Path) : String :=
  Text.quoted path.text

/-- A path in quotes, if there is one. -/
def quotedPath? : Option Path → String
  | some path => "Some(" ++ quotedPath path ++ ")"
  | none => "None"

/-- What the run was about to do with a file. -/
def context? : RunError → Option String
  | settings file _ => some ("Failed to load config: " ++ quotedPath file)
  | unit file _ => some ("Failed to read declaration tree: " ++ quotedPath file)
  | exclusion file? _ => some ("Failed to read ignore file: " ++ quotedPath? file?)
  | analysis _ => none
  | generation _ => none

/-- What went wrong, without the context. -/
def cause : RunError → String
  | settings _ error => error.message
  | unit _ error => error.message
  | exclusion _ error => error.message
  | analysis error => error.message
  | generation error => error.message

end RunError

end Hdf5Bindings
